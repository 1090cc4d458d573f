import Xcs.Db.FencingRuns
import Xcs.Indexer.Repository
import Xcs.Run.LinkedLog

/-!
# The checkpoints over whole runs

Any number of processes call the repository of a profile in any order: they initialise the profile,
acquire, renew, release and halt leases, write statuses, and persist ledgers, of whatever chain and
with whatever token.  Each call is one transaction, and one that throws is rolled back.

The stored checkpoints are a linked log from the activation ledger of the stored profile.

* `RepositoryStep.checkpointChain` says that every transaction keeps the checkpoints such a log.
* `RepositoryStep.checkpoint_mem` says that no transaction removes a checkpoint.
* `checkpoint_chain` is the contract of `persistLedger` over whole runs.
-/

namespace Xcs
namespace Indexer

open Js Xcs.Core Db

/-! ## Operations and their outcomes -/

/-- The calls to the repository that write. -/
inductive RepositoryOperation where
  | lease (operation : FencingOperation)
  | initializeProfile (scope : DatabaseScope) (others : Bool) (profile : NetworkProfile)
  | persistLedger (profile : NetworkProfile) (projection : LedgerProjection)
      (token : IndexerLeaseToken) (status : IndexerStatusUpdateInput)

/-- What a successful call returns. -/
inductive RepositoryOutcome where
  | lease (outcome : FencingOutcome)
  | initialized
  | persisted (result : PersistResult)

/-- One transaction on the rows of the profile. -/
def RepositoryOperation.perform (P : Platform) (clock : PersistClock) (rows : ProfileRows) :
    RepositoryOperation → Except Thrown (RepositoryOutcome × ProfileRows)
  | .lease operation => do
      let (outcome, rows) ← operation.perform clock.status rows
      pure (.lease outcome, rows)
  | .initializeProfile scope others profile => do
      let rows ← Indexer.initializeProfile scope others profile rows
      pure (.initialized, rows)
  | .persistLedger profile projection token status => do
      let (result, rows) ← Indexer.persistLedger P profile projection token status clock rows
      pure (.persisted result, rows)

/-- A call together with what came of it. -/
structure RepositoryEvent where
  operation : RepositoryOperation
  result : Except Thrown RepositoryOutcome

/-- One transaction of some process. -/
inductive RepositoryStep (P : Platform) : FencingState → RepositoryEvent → FencingState → Prop
  | commit {s : FencingState} {operation : RepositoryOperation} {clock : PersistClock}
      {outcome : RepositoryOutcome} {rows : ProfileRows} (later : s.clock ≤ clock.lock)
      (success : operation.perform P clock s.rows = .ok (outcome, rows)) :
      RepositoryStep P s ⟨operation, .ok outcome⟩ ⟨rows, clock.status.updated⟩
  | rollback {s : FencingState} {operation : RepositoryOperation} {clock : PersistClock}
      {error : Thrown} (later : s.clock ≤ clock.lock)
      (failure : operation.perform P clock s.rows = .error error) :
      RepositoryStep P s ⟨operation, .error error⟩ ⟨s.rows, clock.status.updated⟩

/-! ## The log of checkpoints -/

/-- The checkpoints are a log from the activation ledger of the stored profile. -/
structure CheckpointChain (rows : ProjectionRows) : Prop where
  unregistered : rows.networkProfile = none → rows.ledgerCheckpoints = []
  linked : ∀ stored, rows.networkProfile = some stored →
    LinkedLog LedgerCheckpointRow.ledgerIndex LedgerCheckpointRow.ledgerHash
      LedgerCheckpointRow.parentHash stored.activationLedgerIndex stored.activationLedgerHash
      rows.ledgerCheckpoints

theorem CheckpointChain.empty : CheckpointChain ProjectionRows.empty where
  unregistered := fun _ => rfl
  linked := fun _ h => by cases h

/-- In a log the newest checkpoint is the last row. -/
theorem CheckpointChain.latestCheckpoint_eq {rows : ProjectionRows} (h : CheckpointChain rows) :
    latestCheckpoint rows = rows.ledgerCheckpoints.getLast? := by
  cases hstored : rows.networkProfile with
  | none =>
      rw [latestCheckpoint, h.unregistered hstored]
      rfl
  | some stored => exact (h.linked stored hstored).argmax_index

/-- A ledger that continues the newest checkpoint continues the log. -/
theorem continuesLog_of_continues {profile : NetworkProfile} {newest : Option LedgerCheckpointRow}
    {ledger : ValidatedLedger} (h : Continues profile (newest.map checkpointFromRow) ledger) :
    ContinuesLog LedgerCheckpointRow.ledgerIndex LedgerCheckpointRow.ledgerHash
      LedgerCheckpointRow.parentHash (profileRow profile).activationLedgerIndex
      (profileRow profile).activationLedgerHash newest (checkpointRow ledger) := by
  cases newest <;> exact h

/-- Making sure of the stored profile keeps the log. -/
theorem checkpointChain_ensureNetworkProfile {profile : NetworkProfile}
    {rows rows' : ProjectionRows} (h : CheckpointChain rows)
    (hensure : ensureNetworkProfile profile rows = .ok rows') :
    CheckpointChain rows' ∧ rows'.networkProfile = some (profileRow profile) ∧
      rows'.ledgerCheckpoints = rows.ledgerCheckpoints := by
  rcases ensureNetworkProfile_eq_ok.mp hensure with ⟨hstored, rfl⟩ | ⟨hnone, -, rfl⟩
  · exact ⟨h, hstored, rfl⟩
  · refine ⟨⟨fun h => (by cases h), fun stored _ => ?_⟩, rfl, rfl⟩
    dsimp only
    rw [h.unregistered hnone]
    exact .nil

/-- Writing the projection of a ledger appends its checkpoint to the log. -/
theorem checkpointChain_persistProjection {P : Platform} {profile : NetworkProfile}
    {projection : LedgerProjection} {rows rows' : ProjectionRows} (h : CheckpointChain rows)
    (hstored : rows.networkProfile = some (profileRow profile))
    (hwritten : persistProjection P profile projection rows = .ok rows') :
    CheckpointChain rows' := by
  obtain ⟨hcontinues, hprofile, hcheckpoints, -⟩ := persistProjection_ok hwritten
  rw [getLastCheckpoint, h.latestCheckpoint_eq] at hcontinues
  refine ⟨fun hnone => ?_, fun stored hsome => ?_⟩
  · rw [hprofile, hstored] at hnone
    cases hnone
  · rw [hprofile, hstored, Option.some.injEq] at hsome
    rw [hcheckpoints, ← hsome]
    exact (h.linked _ hstored).snoc (continuesLog_of_continues hcontinues)

/-- What a successful call found, and the rows it left. -/
inductive RepositoryEffect (P : Platform) (clock : PersistClock) (rows : ProfileRows) :
    RepositoryOperation → RepositoryOutcome → ProfileRows → Prop
  | lease {operation : FencingOperation} {outcome : FencingOutcome} {rows' : ProfileRows}
      (effect : LeaseEffect clock.status rows operation outcome rows') :
      RepositoryEffect P clock rows (.lease operation) (.lease outcome) rows'
  | initialized {scope : DatabaseScope} {others : Bool} {profile : NetworkProfile}
      {after : ProjectionRows}
      (ensured : ensureNetworkProfile profile rows.toProjectionRows = .ok after) :
      RepositoryEffect P clock rows (.initializeProfile scope others profile) .initialized
        { rows with toProjectionRows := after }
  | persisted {profile : NetworkProfile} {projection : LedgerProjection}
      {token : IndexerLeaseToken} {status : IndexerStatusUpdateInput} {result : PersistResult}
      {before after : ProjectionRows} {row row' : IndexerStatusRow}
      {value : NormalizedIndexerStatus} (normalToken : normalizeToken token = .ok token)
      (sameProfile : token.profileId = profile.profileId)
      (found : rows.indexerStatus = some row)
      (locked : activeTokenFilter token clock.lock row = true)
      (ensured : ensureNetworkProfile profile rows.toProjectionRows = .ok before)
      (persists : Persists P profile projection before result after)
      (normal : normalizeStatus (.writable status.state) status.toStatusFields = .ok value)
      (checks : ∀ c ∈ row'.checks, c.2 = true)
      (set : row' = row.withStatus value clock.status.updated) :
      RepositoryEffect P clock rows (.persistLedger profile projection token status)
        (.persisted result) { rows with toProjectionRows := after, indexerStatus := some row' }

/-- **Inversion.**  The three ways in which a call can succeed. -/
theorem RepositoryOperation.perform_ok {P : Platform} {clock : PersistClock}
    {rows rows' : ProfileRows} {operation : RepositoryOperation} {outcome : RepositoryOutcome}
    (h : operation.perform P clock rows = .ok (outcome, rows')) :
    RepositoryEffect P clock rows operation outcome rows' := by
  cases operation with
  | lease operation =>
      simp only [perform, bind_eq_ok, pure_eq_ok, Prod.exists, Prod.mk.injEq] at h
      obtain ⟨outcome, _, h, rfl, rfl⟩ := h
      exact .lease (FencingOperation.perform_ok h)
  | initializeProfile scope others profile =>
      simp only [perform, Indexer.initializeProfile, bind_eq_ok, pure_eq_ok, Prod.mk.injEq] at h
      obtain ⟨_, ⟨-, -, after, hensure, rfl⟩, rfl, rfl⟩ := h
      exact .initialized hensure
  | persistLedger profile projection token status =>
      simp only [perform, bind_eq_ok, pure_eq_ok, Prod.exists, Prod.mk.injEq] at h
      obtain ⟨result, _, h, rfl, rfl⟩ := h
      obtain ⟨hprofile, ⟨row, hlock⟩, before, after, row', hensure, hpersists, hupdate⟩ :=
        persistLedger_eq_ok.mp h
      obtain ⟨htoken, hfound, hlocked⟩ := lockActiveIndexerLease_eq_ok.mp hlock
      obtain ⟨row₀, value, hrow, -, hvalue, hchecks, hset, rfl⟩ := updateIndexerStatus_ok hupdate
      obtain rfl := Option.some.inj (hfound.symm.trans hrow)
      exact .persisted htoken hprofile hfound hlocked hensure hpersists hvalue hchecks hset

/-- **The invariant rule of the projection.**  What making sure of the profile and writing the
projection of a ledger preserve, every transaction preserves. -/
theorem RepositoryStep.projection_rule {P : Platform} {Q : ProjectionRows → Prop}
    (ensured : ∀ profile rows rows', Q rows → ensureNetworkProfile profile rows = .ok rows' →
      Q rows')
    (written : ∀ profile projection rows rows', Q rows →
      rows.networkProfile = some (profileRow profile) →
      persistProjection P profile projection rows = .ok rows' → Q rows')
    {s t : FencingState} {e : RepositoryEvent} (h : RepositoryStep P s e t)
    (hs : Q s.rows.toProjectionRows) : Q t.rows.toProjectionRows := by
  cases h with
  | rollback later failure => exact hs
  | commit later success =>
      cases RepositoryOperation.perform_ok success with
      | lease effect =>
          rw [effect.projection]
          exact hs
      | initialized hensured => exact ensured _ _ _ hs hensured
      | persisted normalToken sameProfile found locked hensured persists normal checks set =>
          have hbefore := ensured _ _ _ hs hensured
          cases persists with
          | again => exact hbefore
          | next fresh hwritten =>
              refine written _ _ _ _ hbefore ?_ hwritten
              rcases ensureNetworkProfile_eq_ok.mp hensured with ⟨hstored, hsame⟩ | ⟨-, -, hnew⟩
              · rw [hsame]
                exact hstored
              · rw [hnew]

/-- **No transaction breaks the log.** -/
theorem RepositoryStep.checkpointChain {P : Platform} {s t : FencingState} {e : RepositoryEvent}
    (hs : CheckpointChain s.rows.toProjectionRows) (h : RepositoryStep P s e t) :
    CheckpointChain t.rows.toProjectionRows :=
  h.projection_rule
    (fun _ _ _ hrows hensure => (checkpointChain_ensureNetworkProfile hrows hensure).1)
    (fun _ _ _ _ hrows hstored hwritten =>
      checkpointChain_persistProjection hrows hstored hwritten) hs

/-- No transaction removes a checkpoint, and the stored profile, once it is there, stays. -/
theorem RepositoryStep.checkpoint_mem {P : Platform} {s t : FencingState} {e : RepositoryEvent}
    {stored : NetworkProfileRow} {checkpoint : LedgerCheckpointRow}
    (hs : s.rows.networkProfile = some stored ∧ checkpoint ∈ s.rows.ledgerCheckpoints)
    (h : RepositoryStep P s e t) :
    t.rows.networkProfile = some stored ∧ checkpoint ∈ t.rows.ledgerCheckpoints := by
  refine @RepositoryStep.projection_rule P (fun rows => rows.networkProfile = some stored ∧
    checkpoint ∈ rows.ledgerCheckpoints) (fun profile rows rows' hrows hensure => ?_)
    (fun profile projection rows rows' hrows _ hwritten => ?_) s t e h hs
  · rcases ensureNetworkProfile_eq_ok.mp hensure with ⟨-, rfl⟩ | ⟨hnone, -⟩
    · exact hrows
    · rw [hrows.1] at hnone
      cases hnone
  · obtain ⟨-, hprofile, hcheckpoints, -⟩ := persistProjection_ok hwritten
    rw [hprofile, hcheckpoints]
    exact ⟨hrows.1, List.mem_append_left _ hrows.2⟩

/-! ## The status row -/

/-- The status row satisfies its constraints, and its instant lies in the past. -/
structure StatusInvariant (s : FencingState) : Prop where
  valid : StatusValid s.rows
  updated : ∀ row, s.rows.indexerStatus = some row → row.updatedAt ≤ s.clock

/-- No transaction breaks the invariant of the status row. -/
theorem RepositoryStep.statusInvariant {P : Platform} {s t : FencingState} {e : RepositoryEvent}
    (hs : StatusInvariant s) (h : RepositoryStep P s e t) : StatusInvariant t := by
  have hclock : ∀ {clock : PersistClock}, s.clock ≤ clock.lock → s.clock ≤ clock.status.updated :=
    fun {clock} hlater => hlater.trans
      (clock.lock_le.trans (clock.status.filter_le.trans clock.status.lease_le))
  have hwritten : ∀ {rows : ProfileRows} {row : IndexerStatusRow} {now : Instant},
      rows.indexerStatus = some row → (∀ c ∈ row.checks, c.2 = true) → row.updatedAt = now →
      StatusInvariant ⟨rows, now⟩ := by
    intro rows row now hrow hchecks hupdated
    refine ⟨fun row' hrow' => ?_, fun row' hrow' => ?_⟩
    · obtain rfl := Option.some.inj (hrow.symm.trans hrow')
      exact hchecks
    · obtain rfl := Option.some.inj (hrow.symm.trans hrow')
      exact hupdated.le
  have hkept : ∀ {rows : ProfileRows} {now : Instant}, s.clock ≤ now →
      rows.indexerStatus = s.rows.indexerStatus → StatusInvariant ⟨rows, now⟩ := by
    intro rows now hlater hsame
    exact ⟨fun row hrow => hs.valid row (hsame ▸ hrow),
      fun row hrow => (hs.updated row (hsame ▸ hrow)).trans hlater⟩
  cases h with
  | rollback later failure => exact hkept (hclock later) rfl
  | commit later success =>
      cases RepositoryOperation.perform_ok success with
      | lease effect =>
          rcases effect.row with hsame | ⟨row, hrow, hchecks, hupdated⟩
          · exact hkept (hclock later) hsame
          · exact hwritten hrow hchecks hupdated
      | initialized hensured => exact hkept (hclock later) rfl
      | persisted normalToken sameProfile found locked hensured persists normal checks set =>
          exact hwritten rfl checks (by rw [set]; rfl)

/-! ## The contract of the checkpoints -/

/-- The row shows a token, and its lease ends after the call. -/
def HoldsLease (rows : ProfileRows) (token : IndexerLeaseToken) (clock : PersistClock) : Prop :=
  ∃ row expires, rows.indexerStatus = some row ∧ tokenFilter token row = true ∧
    row.leaseExpiresAt = some expires ∧ clock.status.updated < expires

/-- The event is a successful call of `persistLedger`. -/
def RepositoryEvent.Persists (e : RepositoryEvent) (profile : NetworkProfile)
    (projection : LedgerProjection) (status : IndexerStatusUpdateInput) : Prop :=
  ∃ token outcome, e = ⟨.persistLedger profile projection token status, .ok outcome⟩

/-- The stored profile is the given one, and the ledger has its checkpoint. -/
structure HasCheckpoint (rows : ProjectionRows) (profile : NetworkProfile)
    (ledger : ValidatedLedger) (checkpoint : LedgerCheckpointRow) : Prop where
  stored : rows.networkProfile = some (profileRow profile)
  mem : checkpoint ∈ rows.ledgerCheckpoints
  index : checkpoint.ledgerIndex = ledger.ledgerIndex
  hash : checkpoint.ledgerHash = ledger.ledgerHash
  root : checkpoint.transactionRoot = ledger.transactionRoot
  count : checkpoint.transactionCount = ledger.transactions.length

/-- A successful call leaves the checkpoint of its ledger. -/
theorem RepositoryStep.hasCheckpoint {P : Platform} {s t : FencingState} {e : RepositoryEvent}
    {profile : NetworkProfile} {projection : LedgerProjection} {status : IndexerStatusUpdateInput}
    (h : RepositoryStep P s e t) (hpersists : e.Persists profile projection status) :
    matchesProfileId profile.profileId = true ∧
      (∃ value, normalizeStatus (.writable status.state) status.toStatusFields = .ok value) ∧
      ∃ checkpoint, HasCheckpoint t.rows.toProjectionRows profile projection.ledger checkpoint := by
  obtain ⟨token, outcome, rfl⟩ := hpersists
  cases h with
  | commit later success =>
      cases RepositoryOperation.perform_ok success with
      | persisted normalToken sameProfile found locked hensured persists normal checks set =>
          rename_i before after row row' value
          have hid : matchesProfileId profile.profileId = true := by
            simp only [normalizeToken, bind_eq_ok, ensure_eq_ok, exists_const] at normalToken
            rw [← sameProfile]
            exact normalToken.1
          have hstored : before.networkProfile = some (profileRow profile) := by
            rcases ensureNetworkProfile_eq_ok.mp hensured with ⟨hstored, hsame⟩ | ⟨-, -, hnew⟩
            · rw [hsame]
              exact hstored
            · rw [hnew]
          refine ⟨hid, ⟨value, normal⟩, ?_⟩
          cases persists with
          | again hfound hash root count =>
              rename_i checkpoint
              have hindex := List.find?_some hfound
              exact ⟨checkpoint, hstored, List.mem_of_find?_eq_some hfound, eq_of_beq hindex, hash,
                root, count⟩
          | next fresh written =>
              obtain ⟨-, hprofile, hcheckpoints, -⟩ := persistProjection_ok written
              refine ⟨checkpointRow projection.ledger, hprofile.trans hstored, ?_, rfl, rfl, rfl,
                rfl⟩
              dsimp only
              rw [hcheckpoints]
              exact List.mem_append_right _ (List.mem_singleton_self _)

/-- The checkpoint of a persisted ledger is there ever after. -/
theorem hasCheckpoint_of_run {P : Platform} {s t : FencingState} {tr : List RepositoryEvent}
    {profile : NetworkProfile} {projection : LedgerProjection} {status : IndexerStatusUpdateInput}
    (run : Run (RepositoryStep P) s tr t) (h : ∃ e ∈ tr, e.Persists profile projection status) :
    matchesProfileId profile.profileId = true ∧
      (∃ value, normalizeStatus (.writable status.state) status.toStatusFields = .ok value) ∧
      ∃ checkpoint, HasCheckpoint t.rows.toProjectionRows profile projection.ledger checkpoint := by
  refine @Run.induction _ _ (RepositoryStep P) (fun tr t =>
    (∃ e ∈ tr, e.Persists profile projection status) → matchesProfileId profile.profileId = true ∧
      (∃ value, normalizeStatus (.writable status.state) status.toStatusFields = .ok value) ∧
      ∃ checkpoint, HasCheckpoint t.rows.toProjectionRows profile projection.ledger checkpoint) s
    (by simp) (fun tr t e u _ ih hstep hmem => ?_) tr t run h
  obtain ⟨e₀, hmem, hpersists⟩ := hmem
  rcases List.mem_append.mp hmem with hmem | hmem
  · obtain ⟨hid, hnormal, checkpoint, hcheckpoint⟩ := ih ⟨e₀, hmem, hpersists⟩
    obtain ⟨hstored, hkept⟩ := hstep.checkpoint_mem ⟨hcheckpoint.stored, hcheckpoint.mem⟩
    exact ⟨hid, hnormal, checkpoint, { hcheckpoint with stored := hstored, mem := hkept }⟩
  · obtain rfl := List.mem_singleton.mp hmem
    exact hstep.hasCheckpoint hpersists

/-- The checkpoint at the index of a ledger is found. -/
theorem CheckpointChain.sameIndex_eq {rows : ProjectionRows} (h : CheckpointChain rows)
    {checkpoint : LedgerCheckpointRow} (hmem : checkpoint ∈ rows.ledgerCheckpoints)
    {ledger : ValidatedLedger} (hindex : checkpoint.ledgerIndex = ledger.ledgerIndex) :
    sameIndex ledger rows = some checkpoint := by
  cases hstored : rows.networkProfile with
  | none =>
      rw [h.unregistered hstored] at hmem
      exact absurd hmem List.not_mem_nil
  | some stored =>
      cases hfound : sameIndex ledger rows with
      | none =>
          have hnone := List.find?_eq_none.mp hfound checkpoint hmem
          exact absurd (beq_iff_eq.mpr hindex) hnone
      | some found =>
          have hsame : found.ledgerIndex = ledger.ledgerIndex := by
            have hbeq := List.find?_some hfound
            exact eq_of_beq hbeq
          rw [(h.linked stored hstored).eq_of_index_eq (List.mem_of_find?_eq_some hfound) hmem
            (hsame.trans hindex.symm)]

/-- A call that repeats a ledger succeeds and writes nothing but the status. -/
theorem persistLedger_again {P : Platform} {s : FencingState}
    (hchain : CheckpointChain s.rows.toProjectionRows) (hstatus : StatusInvariant s)
    {profile : NetworkProfile} {projection : LedgerProjection} {checkpoint : LedgerCheckpointRow}
    (hcheckpoint : HasCheckpoint s.rows.toProjectionRows profile projection.ledger checkpoint)
    (hid : matchesProfileId profile.profileId = true) {status : IndexerStatusUpdateInput}
    {value : NormalizedIndexerStatus}
    (hvalue : normalizeStatus (.writable status.state) status.toStatusFields = .ok value)
    {token : IndexerLeaseToken} (hprofile : token.profileId = profile.profileId)
    {clock : PersistClock} (hlater : s.clock ≤ clock.lock)
    (hholds : HoldsLease s.rows token clock) :
    ∃ rows', persistLedger P profile projection token status clock s.rows
        = .ok (.alreadyProcessed, rows') ∧ rows'.toProjectionRows = s.rows.toProjectionRows := by
  obtain ⟨row, expires, hrow, hshown, hexpires, hlive⟩ := hholds
  have hchecks := hstatus.valid row hrow
  have hupdated := hstatus.updated row hrow
  have hfilter : clock.status.filter ≤ clock.status.updated :=
    clock.status.filter_le.trans clock.status.lease_le
  have hlock : clock.lock ≤ clock.status.updated := clock.lock_le.trans hfilter
  have hshown' := hshown
  simp only [tokenFilter, Bool.and_eq_true, beq_iff_eq] at hshown'
  obtain ⟨hwriter, hepoch⟩ := hshown'
  have htoken : normalizeToken token = .ok token := by
    have hrow' := hchecks
    simp only [IndexerStatusRow.checks, List.forall_mem_cons, decide_eq_true_eq, hwriter, hepoch,
      nullOr] at hrow'
    simp only [normalizeToken, bind_eq_ok, ensure_eq_ok, exists_const, pure_eq_ok,
      decide_eq_true_eq, and_true]
    exact ⟨hprofile ▸ hid, hrow'.2.2.2.2.2.2.2.2.2.1, hrow'.2.2.2.2.2.2.2.2.1⟩
  have hwindow : row.updatedAt ≤ expires ∧ expires ≤ row.updatedAt + fiveMinutes := by
    have hrow' := hchecks
    simp only [IndexerStatusRow.checks, List.forall_mem_cons, leaseWindow, hwriter, hexpires,
      decide_eq_true_eq] at hrow'
    exact hrow'.2.2.2.2.1
  have hactive : ∀ now, now ≤ clock.status.updated → activeTokenFilter token now row = true := by
    intro now hnow
    rw [activeTokenFilter, hshown, hexpires]
    exact decide_eq_true (lt_of_le_of_lt hnow hlive)
  have hlate : expires ≤ clock.status.updated + fiveMinutes :=
    hwindow.2.trans (Nat.add_le_add_right ((hupdated.trans hlater).trans hlock) _)
  have hset := checks_withStatus hchecks hvalue hwriter hexpires hlive.le hlate
  refine ⟨_, persistLedger_eq_ok.mpr ⟨hprofile, ⟨row, lockActiveIndexerLease_eq_ok.mpr
    ⟨htoken, hrow, hactive _ hlock⟩⟩, s.rows.toProjectionRows, s.rows.toProjectionRows, _,
    ensureNetworkProfile_eq_ok.mpr (Or.inl ⟨hcheckpoint.stored, rfl⟩),
    .again (hchain.sameIndex_eq hcheckpoint.mem hcheckpoint.index) hcheckpoint.hash
      hcheckpoint.root hcheckpoint.count,
    updateIndexerStatus_of_active htoken hvalue hrow (hactive _ hfilter) hset⟩, rfl⟩

/-- A call with a ledger that has another hash than the checkpoint at its index fails. -/
theorem persistLedger_conflict {P : Platform} {rows : ProfileRows}
    (hchain : CheckpointChain rows.toProjectionRows) {checkpoint : LedgerCheckpointRow}
    (hmem : checkpoint ∈ rows.ledgerCheckpoints) {projection : LedgerProjection}
    (hindex : checkpoint.ledgerIndex = projection.ledger.ledgerIndex)
    (hhash : checkpoint.ledgerHash ≠ projection.ledger.ledgerHash) (profile : NetworkProfile)
    (token : IndexerLeaseToken) (status : IndexerStatusUpdateInput) (clock : PersistClock) :
    ∃ error, persistLedger P profile projection token status clock rows = .error error := by
  cases hresult : persistLedger P profile projection token status clock rows with
  | error error => exact ⟨error, rfl⟩
  | ok result =>
      obtain ⟨result, rows'⟩ := result
      obtain ⟨-, -, before, after, row, hensure, hpersists, -⟩ := persistLedger_eq_ok.mp hresult
      obtain ⟨hbefore, -, hsame⟩ := checkpointChain_ensureNetworkProfile hchain hensure
      have hfound := hbefore.sameIndex_eq (hsame ▸ hmem) hindex
      cases hpersists with
      | again found hash root count =>
          rw [hfound, Option.some.injEq] at found
          exact absurd (found ▸ hash) hhash
      | next fresh written =>
          rw [hfound] at fresh
          cases fresh

/-- **The checkpoint chain.**  After any run of calls by any processes, from rows whose checkpoints
are a log:

* the checkpoints are a log, from the activation ledger of the stored profile, each one descending
  from the one before it;
* a call that fails leaves every row as it was;
* a call that repeats a ledger that was persisted succeeds, whoever makes it while holding the
  lease, and leaves the projection as it was;
* a call with a ledger that has another hash than the checkpoint at its index fails. -/
theorem checkpoint_chain {P : Platform} {s t : FencingState} {tr : List RepositoryEvent}
    (chain : CheckpointChain s.rows.toProjectionRows) (status : StatusInvariant s)
    (run : Run (RepositoryStep P) s tr t) :
    CheckpointChain t.rows.toProjectionRows ∧
    (∀ operation error u, RepositoryStep P t ⟨operation, .error error⟩ u → u.rows = t.rows) ∧
    (∀ profile projection status, (∃ e ∈ tr, e.Persists profile projection status) →
      ∀ token clock, token.profileId = profile.profileId → t.clock ≤ clock.lock →
      HoldsLease t.rows token clock →
      ∃ rows', persistLedger P profile projection token status clock t.rows
          = .ok (.alreadyProcessed, rows') ∧ rows'.toProjectionRows = t.rows.toProjectionRows) ∧
    ∀ checkpoint ∈ t.rows.ledgerCheckpoints, ∀ profile projection token status clock,
      checkpoint.ledgerIndex = projection.ledger.ledgerIndex →
      checkpoint.ledgerHash ≠ projection.ledger.ledgerHash →
      ∃ error, persistLedger P profile projection token status clock t.rows = .error error := by
  have hchain : CheckpointChain t.rows.toProjectionRows :=
    run.invariant (P := fun s => CheckpointChain s.rows.toProjectionRows)
      (fun _ _ _ hs hstep => hstep.checkpointChain hs) chain
  have hstatus : StatusInvariant t :=
    run.invariant (P := StatusInvariant) (fun _ _ _ hs hstep => hstep.statusInvariant hs) status
  refine ⟨hchain, fun operation error u hstep => ?_, ?_, ?_⟩
  · cases hstep with
    | rollback later failure => rfl
  · intro profile projection status hpersisted token clock hprofile hlater hholds
    obtain ⟨hid, ⟨value, hvalue⟩, checkpoint, hcheckpoint⟩ := hasCheckpoint_of_run run hpersisted
    exact persistLedger_again hchain hstatus hcheckpoint hid hvalue hprofile hlater hholds
  · intro checkpoint hmem profile projection token status clock hindex hhash
    exact persistLedger_conflict hchain hmem hindex hhash profile token status clock

/-- The activation ledger of `testnetProfile`, without transactions. -/
def emptyLedger : ValidatedLedger where
  ledgerIndex := 7
  ledgerHash := List.replicate 64 0x61
  parentHash := List.replicate 64 0x30
  transactionRoot := List.replicate 64 0x31
  closeTime := 0
  transactions := []

/-- The status that goes with `emptyLedger` at the tip of both sources. -/
def emptyLedgerStatus : IndexerStatusUpdateInput where
  state := .ready
  primarySourceTip := some 7
  secondarySourceTip := some 7
  lastAgreedLedgerIndex := some 7
  lastAgreedLedgerHash := some (List.replicate 64 0x61)

/-- `leasedRows` after the holder of the lease has persisted `emptyLedger`. -/
def persistedRows : ProfileRows :=
  { leasedRows with
    ledgerCheckpoints := [checkpointRow emptyLedger]
    indexerStatus := some ((acquiredRow (js "a") 1 10000 (.at 0)).withStatus
      ⟨emptyLedgerStatus.toStatusFields, .ready, none⟩ 0) }

/-- A writer that holds the lease persists the activation ledger twice. -/
theorem checkpoint_chain_activation :
    ∃ tr, Run (RepositoryStep .sample) ⟨leasedRows, 0⟩ tr ⟨persistedRows, 0⟩ ∧ tr.length = 2 ∧
      CheckpointChain persistedRows.toProjectionRows := by
  have chain : CheckpointChain leasedRows.toProjectionRows :=
    ⟨fun _ => rfl, fun _ _ => .nil⟩
  have status : StatusInvariant ⟨leasedRows, 0⟩ := by
    refine ⟨fun row hrow => ?_, fun row hrow => ?_⟩
    · obtain rfl := Option.some.inj hrow
      decide
    · obtain rfl := Option.some.inj hrow
      exact le_rfl
  have first : RepositoryStep .sample ⟨leasedRows, 0⟩ _ ⟨persistedRows, 0⟩ :=
    @RepositoryStep.commit .sample ⟨leasedRows, 0⟩
      (.persistLedger testnetProfile ⟨emptyLedger, [], [], 0⟩ ⟨js "testnet", js "a", 1⟩
        emptyLedgerStatus) ⟨0, .at 0, le_rfl⟩ (.persisted .inserted) persistedRows le_rfl rfl
  have second : RepositoryStep .sample ⟨persistedRows, 0⟩ _ ⟨persistedRows, 0⟩ :=
    @RepositoryStep.commit .sample ⟨persistedRows, 0⟩
      (.persistLedger testnetProfile ⟨emptyLedger, [], [], 0⟩ ⟨js "testnet", js "a", 1⟩
        emptyLedgerStatus) ⟨0, .at 0, le_rfl⟩ (.persisted .alreadyProcessed) persistedRows le_rfl
      rfl
  have run := ((Run.nil _).snoc first).snoc second
  exact ⟨_, run, rfl, (checkpoint_chain chain status run).1⟩

end Indexer
end Xcs
