import Xcs.Db.Tables
import Xcs.Run.Fence

/-!
# The writer lease of the indexer

One row of `indexer_status` says which process may write the projection of a profile: its writer
id, the epoch of its lease, and the instant at which the lease ends.  The operations below are the
ones any number of processes interleave on that row, each a single transaction.  A transaction
reads the database clock several times, and `ClockReadings` keeps the readings apart.

A transaction that throws is rolled back, so the operations return the new rows only when they
succeed.

* `normalizeStatus` and the operations follow the source statement by statement.
* `updateReturning_ok` and `acquireIndexerLease_ok` say what a committed transaction found and
  what it left; the other operations are one such update.
-/

namespace Xcs
namespace Db

open Js

/-! ## Inputs and their normalisation -/

/-- `IndexerLeaseToken` -/
structure IndexerLeaseToken where
  profileId : JsString
  writerId : JsString
  epoch : ℕ
  deriving DecidableEq

/-- `AcquiredIndexerLease` -/
structure AcquiredIndexerLease extends IndexerLeaseToken where
  leaseExpiresAt : Instant
  deriving DecidableEq

/-- `AcquireIndexerLeaseInput`, on the database clock. -/
structure AcquireIndexerLeaseInput where
  profileId : JsString
  writerId : JsString
  leaseDurationMs : ℕ

/-- `WritableIndexerStatusState` -/
inductive WritableIndexerStatusState where
  | starting
  | catchingUp
  | ready
  deriving DecidableEq

/-- The fields `IndexerStatusUpdateInput` and `HaltIndexerStatusInput` share. -/
structure StatusFields where
  primarySourceTip : Option ℕ
  secondarySourceTip : Option ℕ
  lastAgreedLedgerIndex : Option ℕ
  lastAgreedLedgerHash : Option JsString
  deriving DecidableEq

/-- `IndexerStatusUpdateInput` -/
structure IndexerStatusUpdateInput extends StatusFields where
  state : WritableIndexerStatusState
  deriving DecidableEq

/-- The state a status write asks for; a halt brings its error code. -/
inductive RequestedState where
  | writable (state : WritableIndexerStatusState)
  | halted (errorCode : JsString)
  deriving DecidableEq

/-- The value of the `state` column. -/
def RequestedState.column : RequestedState → IndexerStatusState
  | .writable .starting => .starting
  | .writable .catchingUp => .catchingUp
  | .writable .ready => .ready
  | .halted _ => .halted

/-- `NormalizedIndexerStatus` -/
structure NormalizedIndexerStatus extends StatusFields where
  state : IndexerStatusState
  errorCode : Option JsString
  deriving DecidableEq

/-- `nullableUint32` -/
def nullableUint32 (value : Option ℕ) (field : JsString) : Except Thrown (Option ℕ) := do
  ensure (isUint32OrNull value) (.error (field ++ js " must be a nullable uint32"))
  pure value

/-- `sanitizedErrorCode` -/
def sanitizedErrorCode (value : JsString) : Except Thrown JsString := do
  ensure (matchesErrorCode value) (.error (js "errorCode must be a sanitized machine code"))
  pure value

/-- The checks of `normalizeStatus` on a last agreed ledger against the source tips. -/
def assertNotAhead (fields : StatusFields) : Except Thrown Unit :=
  match fields.lastAgreedLedgerIndex with
  | none => .ok ()
  | some index => do
      ensure (notAhead index fields.primarySourceTip)
        (.error (js "last agreed ledger cannot exceed the primary source tip"))
      ensure (notAhead index fields.secondarySourceTip)
        (.error (js "last agreed ledger cannot exceed the secondary source tip"))

/-- The checks of `normalizeStatus` on a ready status. -/
def assertReady (fields : StatusFields) : Except Thrown Unit :=
  match fields.primarySourceTip, fields.secondarySourceTip, fields.lastAgreedLedgerIndex,
      fields.lastAgreedLedgerHash with
  | some primary, some secondary, some index, some _ =>
      ensure (index == min primary secondary)
        (.error (js "ready status must agree with the effective source tip"))
  | _, _, _, _ =>
      .error (.error (js "ready status requires both source tips and a last agreed ledger"))

/-- `normalizeStatus` -/
def normalizeStatus (requested : RequestedState) (input : StatusFields) :
    Except Thrown NormalizedIndexerStatus := do
  let primarySourceTip ← nullableUint32 input.primarySourceTip (js "primarySourceTip")
  let secondarySourceTip ← nullableUint32 input.secondarySourceTip (js "secondarySourceTip")
  let lastAgreedLedgerIndex ←
    nullableUint32 input.lastAgreedLedgerIndex (js "lastAgreedLedgerIndex")
  let lastAgreedLedgerHash := input.lastAgreedLedgerHash
  ensure (lastAgreedLedgerIndex.isNone == lastAgreedLedgerHash.isNone)
    (.error (js "last agreed ledger index and hash must be provided together"))
  ensure (nullOr isLowerHash lastAgreedLedgerHash)
    (.error (js "lastAgreedLedgerHash must be lowercase 32-byte hexadecimal"))
  let fields : StatusFields :=
    { primarySourceTip, secondarySourceTip, lastAgreedLedgerIndex, lastAgreedLedgerHash }
  match requested with
  | .writable state =>
      assertNotAhead fields
      if state = .ready then assertReady fields
      pure { toStatusFields := fields, state := requested.column, errorCode := none }
  | .halted errorCode =>
      let errorCode ← sanitizedErrorCode errorCode
      pure { toStatusFields := fields, state := .halted, errorCode := some errorCode }

/-- `normalizeLeaseDuration` -/
def normalizeLeaseDuration (leaseDurationMs : ℕ) : Except Thrown ℕ := do
  ensure (decide (10000 ≤ leaseDurationMs ∧ leaseDurationMs ≤ 300000))
    (.error (js "leaseDurationMs must be an integer between 10000 and 300000"))
  pure leaseDurationMs

/-- `normalizeToken` -/
def normalizeToken (token : IndexerLeaseToken) : Except Thrown IndexerLeaseToken := do
  ensure (matchesProfileId token.profileId) (.error (js "profileId is invalid"))
  ensure (matchesWriterId token.writerId) (.error (js "writerId is invalid"))
  ensure (decide (1 ≤ token.epoch ∧ token.epoch ≤ maxSafeInteger))
    (.error (js "epoch must be a positive safe integer"))
  pure token

/-- `normalizeIndexerLeaseRequest`; the expiration it computes from the process clock is not the
one that is stored. -/
def normalizeIndexerLeaseRequest (input : AcquireIndexerLeaseInput) :
    Except Thrown IndexerLeaseToken := do
  let token ← normalizeToken ⟨input.profileId, input.writerId, 1⟩
  let _ ← normalizeLeaseDuration input.leaseDurationMs
  pure token

/-! ## The transactions -/

/-- The readings of `clock_timestamp()` by one statement: for the filter, then for the new lease,
then for `updated_at`. -/
structure ClockReadings where
  filter : Instant
  lease : Instant
  updated : Instant
  filter_le : filter ≤ lease
  lease_le : lease ≤ updated

/-- `UPDATE indexer_status SET … WHERE … RETURNING *` -/
def updateIndexerStatuses (filter : IndexerStatusRow → Bool)
    (set : IndexerStatusRow → IndexerStatusRow) (rows : ProfileRows) :
    Except Thrown (Option IndexerStatusRow × ProfileRows) :=
  match rows.indexerStatus with
  | none => .ok (none, rows)
  | some row =>
      if filter row then do
        assertChecks (set row).checks
        pure (some (set row), { rows with indexerStatus := some (set row) })
      else .ok (none, rows)

/-- An update whose caller throws when it returned no row. -/
def updateReturning (filter : IndexerStatusRow → Bool)
    (set : IndexerStatusRow → IndexerStatusRow) (error : Thrown) (rows : ProfileRows) :
    Except Thrown (IndexerStatusRow × ProfileRows) := do
  let (row, rows) ← updateIndexerStatuses filter set rows
  match row with
  | none => .error error
  | some row => pure (row, rows)

/-- `INSERT INTO indexer_status … ON CONFLICT DO NOTHING RETURNING profile_id` -/
def insertIndexerStatus (row : IndexerStatusRow) (rows : ProfileRows) :
    Except Thrown (Bool × ProfileRows) :=
  match rows.indexerStatus with
  | some _ => .ok (false, rows)
  | none => do
      assertChecks row.checks
      ensure rows.networkProfile.isSome
        (.database (.foreignKey (js "indexer_status_profile_id_network_profiles_profile_id_fk")))
      pure (true, { rows with indexerStatus := some row })

/-- `tokenFilter`, on the rows of the token's profile. -/
def tokenFilter (token : IndexerLeaseToken) (row : IndexerStatusRow) : Bool :=
  row.writerId == some token.writerId && row.writerEpoch == token.epoch

/-- `activeTokenFilter` -/
def activeTokenFilter (token : IndexerLeaseToken) (now : Instant) (row : IndexerStatusRow) :
    Bool :=
  tokenFilter token row && row.leaseExpiresAt.any fun expires => decide (now < expires)

/-- `acquiredLease` -/
def acquiredLease (profileId : JsString) (row : IndexerStatusRow) :
    Except Thrown AcquiredIndexerLease :=
  match row.writerId, row.leaseExpiresAt with
  | some writerId, some leaseExpiresAt =>
      .ok { profileId, writerId, epoch := row.writerEpoch, leaseExpiresAt }
  | _, _ => .error (.error (js "indexer lease write returned an inactive lease"))

/-- The row an acquisition inserts where there is none. -/
def startingRow (now : Instant) : IndexerStatusRow where
  state := .starting
  primarySourceTip := none
  secondarySourceTip := none
  lastAgreedLedgerIndex := none
  lastAgreedLedgerHash := none
  errorCode := none
  writerId := none
  writerEpoch := 1
  leaseExpiresAt := none
  updatedAt := now

/-- The row an acquisition leaves. -/
def acquiredRow (writerId : JsString) (epoch leaseDurationMs : ℕ) (clock : ClockReadings) :
    IndexerStatusRow :=
  { startingRow clock.updated with
    writerId := some writerId
    writerEpoch := epoch
    leaseExpiresAt := some (clock.lease + leaseDurationMs * 1000) }

/-- `acquireIndexerLease` -/
def acquireIndexerLease (input : AcquireIndexerLeaseInput) (clock : ClockReadings)
    (rows : ProfileRows) : Except Thrown (AcquiredIndexerLease × ProfileRows) := do
  let lease ← normalizeIndexerLeaseRequest input
  let (inserted, rows) ← insertIndexerStatus (startingRow clock.filter) rows
  let free (row : IndexerStatusRow) : Bool :=
    row.leaseExpiresAt.all (fun expires => decide (expires ≤ clock.filter))
      && decide (row.writerEpoch ≤ maxSafeInteger - 1)
  let (row, rows) ← updateReturning (fun row => inserted || free row)
    (fun row => acquiredRow lease.writerId
      (if inserted then row.writerEpoch else row.writerEpoch + 1) input.leaseDurationMs clock)
    (.lease .unavailable) rows
  let acquired ← acquiredLease lease.profileId row
  pure (acquired, rows)

/-- `renewIndexerLease` -/
def renewIndexerLease (tokenInput : IndexerLeaseToken) (leaseDurationMs : ℕ)
    (clock : ClockReadings) (rows : ProfileRows) :
    Except Thrown (AcquiredIndexerLease × ProfileRows) := do
  let token ← normalizeToken tokenInput
  let _ ← normalizeLeaseDuration leaseDurationMs
  let (row, rows) ← updateReturning (activeTokenFilter token clock.filter)
    (fun row => { row with
      leaseExpiresAt := some (clock.lease + leaseDurationMs * 1000)
      updatedAt := clock.updated })
    (.lease .lost) rows
  let acquired ← acquiredLease token.profileId row
  pure (acquired, rows)

/-- The columns a normalised status sets. -/
def IndexerStatusRow.withStatus (row : IndexerStatusRow) (value : NormalizedIndexerStatus)
    (now : Instant) : IndexerStatusRow :=
  { row with
    state := value.state
    primarySourceTip := value.primarySourceTip
    secondarySourceTip := value.secondarySourceTip
    lastAgreedLedgerIndex := value.lastAgreedLedgerIndex
    lastAgreedLedgerHash := value.lastAgreedLedgerHash
    errorCode := value.errorCode
    updatedAt := now }

/-- `updateIndexerStatus` -/
def updateIndexerStatus (tokenInput : IndexerLeaseToken) (input : IndexerStatusUpdateInput)
    (clock : ClockReadings) (rows : ProfileRows) :
    Except Thrown (IndexerStatusRow × ProfileRows) := do
  let token ← normalizeToken tokenInput
  let value ← normalizeStatus (.writable input.state) input.toStatusFields
  updateReturning (activeTokenFilter token clock.filter)
    (fun row => row.withStatus value clock.updated) (.lease .lost) rows

/-- The row a release leaves. -/
def IndexerStatusRow.released (row : IndexerStatusRow) (now : Instant) : IndexerStatusRow :=
  { row with
    state := .catchingUp
    errorCode := none
    writerId := none
    leaseExpiresAt := none
    updatedAt := now }

/-- `releaseIndexerLease` -/
def releaseIndexerLease (tokenInput : IndexerLeaseToken) (clock : ClockReadings)
    (rows : ProfileRows) : Except Thrown (IndexerStatusRow × ProfileRows) := do
  let token ← normalizeToken tokenInput
  updateReturning (tokenFilter token) (fun row => row.released clock.updated) (.lease .lost) rows

/-- The row a halt leaves. -/
def IndexerStatusRow.halted (row : IndexerStatusRow) (value : NormalizedIndexerStatus)
    (now : Instant) : IndexerStatusRow :=
  { row.withStatus value now with writerId := none, leaseExpiresAt := none }

/-- `INSERT INTO indexer_incidents` -/
def insertIndexerIncident (incident : IndexerIncidentRow) (rows : ProfileRows) :
    Except Thrown ProfileRows := do
  assertChecks incident.checks
  ensure (rows.indexerIncidents.all fun row => row.writerEpoch != incident.writerEpoch)
    (.database (.unique (js "indexer_incidents_pk")))
  pure { rows with indexerIncidents := rows.indexerIncidents ++ [incident] }

/-- `haltIndexer` -/
def haltIndexer (tokenInput : IndexerLeaseToken) (input : StatusFields) (errorCode : JsString)
    (clock : ClockReadings) (rows : ProfileRows) :
    Except Thrown (IndexerStatusRow × ProfileRows) := do
  let token ← normalizeToken tokenInput
  let value ← normalizeStatus (.halted errorCode) input
  let (row, rows) ← updateReturning (tokenFilter token)
    (fun row => row.halted value clock.updated) (.lease .lost) rows
  let rows ← insertIndexerIncident
    { writerEpoch := token.epoch
      errorCode := value.errorCode.getD []
      primarySourceTip := value.primarySourceTip
      secondarySourceTip := value.secondarySourceTip
      lastAgreedLedgerIndex := value.lastAgreedLedgerIndex
      lastAgreedLedgerHash := value.lastAgreedLedgerHash } rows
  pure (row, rows)

/-- `lockActiveIndexerLease` -/
def lockActiveIndexerLease (tokenInput : IndexerLeaseToken) (now : Instant)
    (rows : ProfileRows) : Except Thrown IndexerStatusRow := do
  let token ← normalizeToken tokenInput
  match rows.indexerStatus.filter (activeTokenFilter token now) with
  | none => .error (.lease .lost)
  | some row => pure row

/-! ## Normalised statuses -/

/-- What `normalizeStatus` asks of every status. -/
structure StatusFields.IsNormal (input : StatusFields) : Prop where
  primarySourceTip : isUint32OrNull input.primarySourceTip = true
  secondarySourceTip : isUint32OrNull input.secondarySourceTip = true
  agreedLedger : agreedLedgerShape input.lastAgreedLedgerIndex input.lastAgreedLedgerHash = true

/-- The last agreed ledger is not above a source tip. -/
def StatusFields.IsNotAhead (input : StatusFields) : Prop :=
  ∀ index ∈ input.lastAgreedLedgerIndex, notAhead index input.primarySourceTip = true ∧
    notAhead index input.secondarySourceTip = true

/-- The last agreed ledger is the lower one of the source tips. -/
def StatusFields.IsReady (input : StatusFields) : Prop :=
  ∃ primary secondary hash, input.primarySourceTip = some primary ∧
    input.secondarySourceTip = some secondary ∧
    input.lastAgreedLedgerIndex = some (min primary secondary) ∧
    input.lastAgreedLedgerHash = some hash

theorem agreedLedgerShape_iff {index : Option ℕ} {hash : Option JsString} :
    agreedLedgerShape index hash = true ↔ isUint32OrNull index = true ∧
      (index.isNone == hash.isNone) = true ∧ nullOr isLowerHash hash = true := by
  cases index <;> cases hash <;> simp [agreedLedgerShape, isUint32OrNull, nullOr]

theorem assertNotAhead_eq_ok {fields : StatusFields} {u : Unit} :
    assertNotAhead fields = .ok u ↔ fields.IsNotAhead := by
  rw [assertNotAhead, StatusFields.IsNotAhead]
  cases fields.lastAgreedLedgerIndex <;> simp

theorem assertReady_eq_ok {fields : StatusFields} {u : Unit} :
    assertReady fields = .ok u ↔ fields.IsReady := by
  rw [assertReady, StatusFields.IsReady]
  obtain ⟨primary, secondary, index, hash⟩ := fields
  cases primary <;> cases secondary <;> cases index <;> cases hash <;> simp

theorem nullableUint32_eq_ok {value value' : Option ℕ} {field : JsString} :
    nullableUint32 value field = .ok value' ↔ isUint32OrNull value = true ∧ value' = value := by
  simp only [nullableUint32, bind_eq_ok, ensure_eq_ok, exists_const, pure_eq_ok']

/-- The checks of `normalizeStatus` before it looks at the requested state. -/
theorem isNormal_iff {input : StatusFields} :
    input.IsNormal ↔ isUint32OrNull input.primarySourceTip = true ∧
      isUint32OrNull input.secondarySourceTip = true ∧
      isUint32OrNull input.lastAgreedLedgerIndex = true ∧
      (input.lastAgreedLedgerIndex.isNone == input.lastAgreedLedgerHash.isNone) = true ∧
      nullOr isLowerHash input.lastAgreedLedgerHash = true :=
  ⟨fun h => ⟨h.primarySourceTip, h.secondarySourceTip, agreedLedgerShape_iff.mp h.agreedLedger⟩,
    fun ⟨hprimary, hsecondary, hagreed⟩ =>
      ⟨hprimary, hsecondary, agreedLedgerShape_iff.mpr hagreed⟩⟩

/-- What `normalizeStatus` makes of the status of an update. -/
theorem normalizeStatus_writable_eq_ok {state : WritableIndexerStatusState} {input : StatusFields}
    {value : NormalizedIndexerStatus} :
    normalizeStatus (.writable state) input = .ok value ↔
      input.IsNormal ∧ input.IsNotAhead ∧ (state = .ready → input.IsReady) ∧
        value = ⟨input, (RequestedState.writable state).column, none⟩ := by
  simp only [normalizeStatus, bind_eq_ok, nullableUint32_eq_ok, ensure_eq_ok, exists_const,
    isNormal_iff]
  constructor
  · rintro ⟨_, ⟨hprimary, rfl⟩, _, ⟨hsecondary, rfl⟩, _, ⟨hindex, rfl⟩, htogether, hhash, h⟩
    cases state <;>
      simp only [reduceCtorEq, if_false, if_true, bind_eq_ok, exists_const, pure_eq_ok',
        assertNotAhead_eq_ok, assertReady_eq_ok] at h
    · exact ⟨⟨hprimary, hsecondary, hindex, htogether, hhash⟩, h.1, by simp, h.2⟩
    · exact ⟨⟨hprimary, hsecondary, hindex, htogether, hhash⟩, h.1, by simp, h.2⟩
    · exact ⟨⟨hprimary, hsecondary, hindex, htogether, hhash⟩, h.1, fun _ => h.2.1, h.2.2⟩
  · rintro ⟨⟨hprimary, hsecondary, hindex, htogether, hhash⟩, hahead, hready, rfl⟩
    refine ⟨_, ⟨hprimary, rfl⟩, _, ⟨hsecondary, rfl⟩, _, ⟨hindex, rfl⟩, htogether, hhash, ?_⟩
    cases state <;>
      simp only [reduceCtorEq, if_false, if_true, bind_eq_ok, exists_const, pure_eq_ok',
        assertNotAhead_eq_ok, assertReady_eq_ok]
    · exact ⟨hahead, trivial⟩
    · exact ⟨hahead, trivial⟩
    · exact ⟨hahead, hready rfl, trivial⟩

/-- What `normalizeStatus` makes of the status of a halt. -/
theorem normalizeStatus_halted_eq_ok {errorCode : JsString} {input : StatusFields}
    {value : NormalizedIndexerStatus} :
    normalizeStatus (.halted errorCode) input = .ok value ↔
      input.IsNormal ∧ matchesErrorCode errorCode = true ∧
        value = ⟨input, .halted, some errorCode⟩ := by
  simp only [normalizeStatus, bind_eq_ok, nullableUint32_eq_ok, ensure_eq_ok, exists_const,
    isNormal_iff, sanitizedErrorCode, pure_eq_ok']
  constructor
  · rintro ⟨_, ⟨hprimary, rfl⟩, _, ⟨hsecondary, rfl⟩, _, ⟨hindex, rfl⟩, htogether, hhash, _,
      ⟨hcode, rfl⟩, rfl⟩
    exact ⟨⟨hprimary, hsecondary, hindex, htogether, hhash⟩, hcode, rfl⟩
  · rintro ⟨⟨hprimary, hsecondary, hindex, htogether, hhash⟩, hcode, rfl⟩
    exact ⟨_, ⟨hprimary, rfl⟩, _, ⟨hsecondary, rfl⟩, _, ⟨hindex, rfl⟩, htogether, hhash, _,
      ⟨hcode, rfl⟩, rfl⟩

/-- The constraints on the last agreed ledger and the tips hold of every normalised status. -/
theorem isNotAhead_check {input : StatusFields} (h : input.IsNotAhead) :
    nullOr (fun index => notAhead index input.primarySourceTip
      && notAhead index input.secondarySourceTip) input.lastAgreedLedgerIndex = true := by
  cases hindex : input.lastAgreedLedgerIndex with
  | none => rfl
  | some index =>
      have hboth := h index hindex
      rw [nullOr, Bool.and_eq_true]
      exact hboth

/-- **A normalised status never violates a constraint**, as long as the lease is live: the update
of the status row is not refused for its content. -/
theorem checks_withStatus {row : IndexerStatusRow} (hrow : ∀ c ∈ row.checks, c.2 = true)
    {state : WritableIndexerStatusState} {input : StatusFields} {value : NormalizedIndexerStatus}
    (hvalue : normalizeStatus (.writable state) input = .ok value) {writerId : JsString}
    {expires now : Instant} (hwriter : row.writerId = some writerId)
    (hexpires : row.leaseExpiresAt = some expires) (hlive : now ≤ expires)
    (hwindow : expires ≤ now + fiveMinutes) :
    ∀ c ∈ (row.withStatus value now).checks, c.2 = true := by
  obtain ⟨hnormal, hahead, hready, rfl⟩ := normalizeStatus_writable_eq_ok.mp hvalue
  have hlease : leaseWindow (row.withStatus ⟨input, (RequestedState.writable state).column, none⟩
      now) = true := by
    simp only [leaseWindow, IndexerStatusRow.withStatus, hwriter, hexpires]
    exact decide_eq_true ⟨hlive, hwindow⟩
  have hshape : (!((RequestedState.writable state).column == .ready)
      || readyShape (row.withStatus ⟨input, (RequestedState.writable state).column, none⟩ now))
      = true := by
    cases state with
    | ready =>
        obtain ⟨primary, secondary, hash, hp, hs, hi, hh⟩ := hready rfl
        simp [readyShape, IndexerStatusRow.withStatus, hp, hs, hi, hh, hwriter, hexpires]
    | _ => rfl
  have herror : (((RequestedState.writable state).column == .halted)
      == (none : Option JsString).isSome) = true := by
    cases state <;> rfl
  simp only [IndexerStatusRow.checks, List.forall_mem_cons] at hrow ⊢
  refine ⟨hnormal.agreedLedger, ?_, rfl, herror, hlease, hnormal.primarySourceTip, hshape,
    hnormal.secondarySourceTip, hrow.2.2.2.2.2.2.2.2.1, hrow.2.2.2.2.2.2.2.2.2⟩
  rw [Bool.or_eq_true]
  exact Or.inr (isNotAhead_check hahead)

/-- A normalised halt never violates a constraint. -/
theorem checks_halted {row : IndexerStatusRow} (hrow : ∀ c ∈ row.checks, c.2 = true)
    {errorCode : JsString} {input : StatusFields} {value : NormalizedIndexerStatus}
    (hvalue : normalizeStatus (.halted errorCode) input = .ok value) (now : Instant) :
    ∀ c ∈ (row.halted value now).checks, c.2 = true := by
  obtain ⟨hnormal, hcode, rfl⟩ := normalizeStatus_halted_eq_ok.mp hvalue
  simp only [IndexerStatusRow.checks, List.forall_mem_cons] at hrow ⊢
  exact ⟨hnormal.agreedLedger, rfl, hcode, rfl, rfl, hnormal.primarySourceTip, rfl,
    hnormal.secondarySourceTip, hrow.2.2.2.2.2.2.2.2.1, rfl, by simp⟩

/-! ## What a successful transaction did -/

theorem updateReturning_ok {filter : IndexerStatusRow → Bool}
    {set : IndexerStatusRow → IndexerStatusRow} {error : Thrown} {rows rows' : ProfileRows}
    {row' : IndexerStatusRow} (h : updateReturning filter set error rows = .ok (row', rows')) :
    ∃ row, rows.indexerStatus = some row ∧ filter row = true ∧
      (∀ c ∈ row'.checks, c.2 = true) ∧ row' = set row ∧
      rows' = { rows with indexerStatus := some row' } := by
  rw [updateReturning, updateIndexerStatuses] at h
  cases hrow : rows.indexerStatus with
  | none => simp [hrow] at h
  | some row =>
      by_cases hfilter : filter row = true
      · simp only [hrow, hfilter, if_true, bind_eq_ok, pure_eq_ok, Prod.mk.injEq,
          assertChecks_eq_ok, Prod.exists] at h
        obtain ⟨_, _, ⟨_, hchecks, rfl, rfl⟩, rfl, rfl⟩ := h
        exact ⟨row, rfl, hfilter, hchecks, rfl, rfl⟩
      · simp [hrow, hfilter] at h

theorem normalizeToken_ok {token token' : IndexerLeaseToken}
    (h : normalizeToken token = .ok token') : token' = token := by
  simp only [normalizeToken, bind_eq_ok, pure_eq_ok] at h
  obtain ⟨-, -, -, -, -, -, h⟩ := h
  exact h.symm

theorem acquiredLease_ok {profileId : JsString} {row : IndexerStatusRow}
    {lease : AcquiredIndexerLease} (h : acquiredLease profileId row = .ok lease) :
    row.writerId = some lease.writerId ∧ row.leaseExpiresAt = some lease.leaseExpiresAt ∧
      lease.epoch = row.writerEpoch ∧ lease.profileId = profileId := by
  unfold acquiredLease at h
  split at h
  · rename_i hwriter hexpires
    cases h
    exact ⟨hwriter, hexpires, rfl, rfl⟩
  · cases h

/-- The epoch of the stored row, and zero where there is none. -/
def ProfileRows.epoch (rows : ProfileRows) : ℕ :=
  rows.indexerStatus.elim 0 (·.writerEpoch)

/-- What a successful status update found and left. -/
theorem updateIndexerStatus_ok {token : IndexerLeaseToken} {input : IndexerStatusUpdateInput}
    {clock : ClockReadings} {rows rows' : ProfileRows} {row' : IndexerStatusRow}
    (h : updateIndexerStatus token input clock rows = .ok (row', rows')) :
    ∃ row value, rows.indexerStatus = some row ∧ activeTokenFilter token clock.filter row = true ∧
      normalizeStatus (.writable input.state) input.toStatusFields = .ok value ∧
      (∀ c ∈ row'.checks, c.2 = true) ∧ row' = row.withStatus value clock.updated ∧
      rows' = { rows with indexerStatus := some row' } := by
  simp only [updateIndexerStatus, bind_eq_ok] at h
  obtain ⟨token', htoken, value, hvalue, hupdate⟩ := h
  obtain rfl := normalizeToken_ok htoken
  obtain ⟨row, hrow, hfilter, hchecks, hset, hrows⟩ := updateReturning_ok hupdate
  exact ⟨row, value, hrow, hfilter, hvalue, hchecks, hset, hrows⟩

/-- A status update that finds its token active and violates no constraint succeeds. -/
theorem updateIndexerStatus_of_active {token : IndexerLeaseToken}
    {input : IndexerStatusUpdateInput} {clock : ClockReadings} {rows : ProfileRows}
    {row : IndexerStatusRow} {value : NormalizedIndexerStatus}
    (htoken : normalizeToken token = .ok token)
    (hvalue : normalizeStatus (.writable input.state) input.toStatusFields = .ok value)
    (hrow : rows.indexerStatus = some row)
    (hactive : activeTokenFilter token clock.filter row = true)
    (hchecks : ∀ c ∈ (row.withStatus value clock.updated).checks, c.2 = true) :
    updateIndexerStatus token input clock rows = .ok (row.withStatus value clock.updated,
      { rows with indexerStatus := some (row.withStatus value clock.updated) }) := by
  have hassert := (@assertChecks_eq_ok _ ()).mpr hchecks
  simp only [updateIndexerStatus, bind_eq_ok]
  refine ⟨token, htoken, value, hvalue, ?_⟩
  simp only [updateReturning, updateIndexerStatuses, hrow, hactive, if_true, bind_eq_ok,
    Prod.exists]
  exact ⟨_, _, ⟨(), hassert, rfl⟩, rfl⟩

/-- A token passes the fence when the row shows it and its lease has not expired. -/
theorem lockActiveIndexerLease_eq_ok {token : IndexerLeaseToken} {now : Instant}
    {rows : ProfileRows} {row : IndexerStatusRow} :
    lockActiveIndexerLease token now rows = .ok row ↔
      normalizeToken token = .ok token ∧ rows.indexerStatus = some row ∧
        activeTokenFilter token now row = true := by
  simp only [lockActiveIndexerLease, bind_eq_ok]
  constructor
  · rintro ⟨token', htoken, h⟩
    obtain rfl := normalizeToken_ok htoken
    cases hrow : rows.indexerStatus.filter (activeTokenFilter token' now) with
    | none => simp [hrow] at h
    | some row' =>
        obtain ⟨hstatus, hactive⟩ := Option.filter_eq_some_iff.mp hrow
        rw [hrow] at h
        obtain rfl := pure_eq_ok.mp h
        exact ⟨htoken, hstatus, hactive⟩
  · rintro ⟨htoken, hrow, hactive⟩
    refine ⟨token, htoken, ?_⟩
    rw [Option.filter_eq_some_iff.mpr ⟨hrow, hactive⟩]
    rfl

/-- A successful acquisition stores the new lease under the next epoch. -/
theorem acquireIndexerLease_ok {input : AcquireIndexerLeaseInput} {clock : ClockReadings}
    {rows rows' : ProfileRows} {lease : AcquiredIndexerLease}
    (h : acquireIndexerLease input clock rows = .ok (lease, rows')) :
    lease.writerId = input.writerId ∧ lease.profileId = input.profileId ∧
      lease.epoch = rows.epoch + 1 ∧
      (∀ c ∈ (acquiredRow lease.writerId lease.epoch input.leaseDurationMs clock).checks,
        c.2 = true) ∧
      rows' = { rows with
        indexerStatus :=
          some (acquiredRow lease.writerId lease.epoch input.leaseDurationMs clock) } := by
  simp only [acquireIndexerLease, bind_eq_ok, pure_eq_ok, Prod.exists, Prod.mk.injEq] at h
  obtain ⟨token, htoken, inserted, rows₁, hinsert, row', rows₂, hupdate, lease', hlease, rfl,
    rfl⟩ := h
  obtain ⟨row, hrow, -, hchecks, rfl, rfl⟩ := updateReturning_ok hupdate
  obtain ⟨hwriter, -, hepoch, hprofile⟩ := acquiredLease_ok hlease
  have hinput : token.writerId = input.writerId ∧ token.profileId = input.profileId := by
    simp only [normalizeIndexerLeaseRequest, bind_eq_ok, pure_eq_ok] at htoken
    obtain ⟨_, htoken, _, -, rfl⟩ := htoken
    rw [normalizeToken_ok htoken]
    exact ⟨rfl, rfl⟩
  have hsame : lease'.writerId = token.writerId := (Option.some.inj hwriter).symm
  have hacquired : acquiredRow token.writerId
      (if inserted then row.writerEpoch else row.writerEpoch + 1) input.leaseDurationMs clock
      = acquiredRow lease'.writerId lease'.epoch input.leaseDurationMs clock := by
    rw [hsame, hepoch]
    rfl
  have hnext : lease'.epoch = rows.epoch + 1 ∧
      { rows₁ with
        indexerStatus := some (acquiredRow lease'.writerId lease'.epoch input.leaseDurationMs
          clock) }
        = { rows with
          indexerStatus := some (acquiredRow lease'.writerId lease'.epoch input.leaseDurationMs
            clock) } := by
    rw [insertIndexerStatus] at hinsert
    cases hstatus : rows.indexerStatus with
    | none =>
        simp only [hstatus, bind_eq_ok, pure_eq_ok, Prod.mk.injEq] at hinsert
        obtain ⟨-, -, -, -, rfl, rfl⟩ := hinsert
        obtain rfl := Option.some.inj hrow
        rw [hepoch, ProfileRows.epoch, hstatus]
        exact ⟨rfl, rfl⟩
    | some row₀ =>
        simp only [hstatus, Except.ok.injEq, Prod.mk.injEq] at hinsert
        obtain ⟨rfl, rfl⟩ := hinsert
        obtain rfl := Option.some.inj (hstatus.symm.trans hrow)
        rw [hepoch, ProfileRows.epoch, hstatus]
        exact ⟨rfl, rfl⟩
  refine ⟨hsame.trans hinput.1, hprofile.trans hinput.2, hnext.1, hacquired ▸ hchecks, ?_⟩
  rw [hacquired]
  exact hnext.2

/-- A successful renewal moves the end of the lease. -/
theorem renewIndexerLease_ok {token : IndexerLeaseToken} {leaseDurationMs : ℕ}
    {clock : ClockReadings} {rows rows' : ProfileRows} {lease : AcquiredIndexerLease}
    (h : renewIndexerLease token leaseDurationMs clock rows = .ok (lease, rows')) :
    ∃ row row', rows.indexerStatus = some row ∧ activeTokenFilter token clock.filter row = true ∧
      (∀ c ∈ row'.checks, c.2 = true) ∧
      row' = { row with
        leaseExpiresAt := some (clock.lease + leaseDurationMs * 1000)
        updatedAt := clock.updated } ∧
      rows' = { rows with indexerStatus := some row' } := by
  simp only [renewIndexerLease, bind_eq_ok, pure_eq_ok, Prod.exists, Prod.mk.injEq] at h
  obtain ⟨token', htoken, _, -, row', rows₁, hupdate, _, -, -, rfl⟩ := h
  obtain rfl := normalizeToken_ok htoken
  obtain ⟨row, hrow, hfilter, hchecks, hset, hrows⟩ := updateReturning_ok hupdate
  exact ⟨row, row', hrow, hfilter, hchecks, hset, hrows⟩

/-- A successful release clears the lease. -/
theorem releaseIndexerLease_ok {token : IndexerLeaseToken} {clock : ClockReadings}
    {rows rows' : ProfileRows} {row' : IndexerStatusRow}
    (h : releaseIndexerLease token clock rows = .ok (row', rows')) :
    ∃ row, rows.indexerStatus = some row ∧ tokenFilter token row = true ∧
      (∀ c ∈ row'.checks, c.2 = true) ∧ row' = row.released clock.updated ∧
      rows' = { rows with indexerStatus := some row' } := by
  simp only [releaseIndexerLease, bind_eq_ok] at h
  obtain ⟨token', htoken, hupdate⟩ := h
  obtain rfl := normalizeToken_ok htoken
  exact updateReturning_ok hupdate

/-- A successful halt clears the lease and records an incident. -/
theorem haltIndexer_ok {token : IndexerLeaseToken} {input : StatusFields} {errorCode : JsString}
    {clock : ClockReadings} {rows rows' : ProfileRows} {row' : IndexerStatusRow}
    (h : haltIndexer token input errorCode clock rows = .ok (row', rows')) :
    ∃ row value incident, rows.indexerStatus = some row ∧ tokenFilter token row = true ∧
      normalizeStatus (.halted errorCode) input = .ok value ∧
      (∀ c ∈ row'.checks, c.2 = true) ∧ row' = row.halted value clock.updated ∧
      rows' = { rows with
        indexerStatus := some row'
        indexerIncidents := rows.indexerIncidents ++ [incident] } := by
  simp only [haltIndexer, insertIndexerIncident, bind_eq_ok, pure_eq_ok, Prod.exists,
    Prod.mk.injEq] at h
  obtain ⟨token', htoken, value, hvalue, row'', rows₁, hupdate, _, ⟨-, -, -, -, rfl⟩, rfl, rfl⟩ := h
  obtain rfl := normalizeToken_ok htoken
  obtain ⟨row, hrow, hfilter, hchecks, hset, rfl⟩ := updateReturning_ok hupdate
  exact ⟨row, value, _, hrow, hfilter, hvalue, hchecks, hset, rfl⟩

end Db
end Xcs
