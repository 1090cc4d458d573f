import Xcs.Indexer.QuorumLedgerSource
import Xcs.Indexer.RepositoryRuns
import Xcs.Run.World

/-!
# The indexer worker

`start` takes the lease of a profile, makes sure of the sources and of the stored checkpoint, and
runs `runOnce` until it is aborted or a replay is complete.  `runOnce` fetches the next ledgers,
projects them and persists each with its status.

The worker is a program on the tables of its profile.  A call to the repository is a transaction on
them, as `RepositoryRuns` has it, or it fails; a call that fails may have been committed all the
same. The sources, the observer and the signal may answer anything, and another answer each time.

The assignment of `replayCompleted` is an event of its own, so that a statement can speak of it.
-/

namespace Xcs
namespace Indexer

open Js Json Xcs.Core Db

/-! ## The target of a replay -/

/-- `ReplayTarget` -/
structure ReplayTarget where
  ledgerIndex : ℕ
  ledgerHash : JsString
  deriving DecidableEq

/-- `createReplayTarget` -/
def createReplayTarget (ledgerIndex : ℕ) (ledgerHash : JsString) : Except Thrown ReplayTarget := do
  ensure (decide (1 ≤ ledgerIndex ∧ ledgerIndex ≤ 0xffffffff))
    (.replayTarget .invalid (js "Replay ledger index must be a positive uint32"))
  ensure (isHash ledgerHash)
    (.replayTarget .invalid (js "Replay ledger hash must be a 32-byte hexadecimal hash"))
  pure ⟨ledgerIndex, toLowerCase ledgerHash⟩

/-! ## Workers -/

/-- `IndexerWorkerOptions`; the writer is given a name. -/
structure IndexerWorkerOptions where
  profile : NetworkProfile
  pollIntervalMs : Option ℕ
  leaseDurationMs : Option ℕ
  batchSize : Option ℕ
  writerId : JsString
  replayTarget : Option ReplayTarget

/-- An `IndexerWorker`: the target of its replay does not precede the activation of its profile. -/
structure IndexerWorker where
  profile : NetworkProfile
  pollIntervalMs : ℕ
  leaseDurationMs : ℕ
  batchSize : ℕ
  writerId : JsString
  replayTarget : Option ReplayTarget
  activation_le : ∀ target, replayTarget = some target →
    profile.activationLedgerIndex ≤ target.ledgerIndex

/-- `createReplayTarget` of the options, if they have a target. -/
def optionalReplayTarget (options : IndexerWorkerOptions) : Except Thrown (Option ReplayTarget) :=
  match options.replayTarget with
  | none => .ok none
  | some target => do
      let target ← createReplayTarget target.ledgerIndex target.ledgerHash
      pure (some target)

/-- The constructor of `IndexerWorker`. -/
def newIndexerWorker (options : IndexerWorkerOptions) : Except Thrown IndexerWorker := do
  let pollIntervalMs := options.pollIntervalMs.getD 4000
  let leaseDurationMs := options.leaseDurationMs.getD 30000
  let batchSize := options.batchSize.getD 20
  let replayTarget ← optionalReplayTarget options
  ensure (decide (250 ≤ pollIntervalMs))
    (.error (js "pollIntervalMs must be an integer of at least 250ms"))
  ensure (decide (10000 ≤ leaseDurationMs ∧ leaseDurationMs ≤ 300000))
    (.error (js "leaseDurationMs must be an integer between 10000 and 300000"))
  ensure (decide (pollIntervalMs * 3 ≤ leaseDurationMs))
    (.error (js "leaseDurationMs must be at least 3 times pollIntervalMs"))
  ensure (decide (1 ≤ batchSize ∧ batchSize ≤ 100))
    (.error (js "batchSize must be an integer between 1 and 100"))
  ensure (matchesWriterId options.writerId) (.error (js "writerId is invalid"))
  match replayTarget with
  | none =>
      pure ⟨options.profile, pollIntervalMs, leaseDurationMs, batchSize, options.writerId, none,
        fun _ h => (nomatch h)⟩
  | some target =>
      if h : options.profile.activationLedgerIndex ≤ target.ledgerIndex then
        pure ⟨options.profile, pollIntervalMs, leaseDurationMs, batchSize, options.writerId,
          some target, fun _ htarget => Option.some.inj htarget ▸ h⟩
      else .error (.replayTarget .unavailable
        (js "Replay target precedes the configured activation ledger"))

/-- The fields of a worker that change. -/
structure WorkerState where
  activeLease : Option IndexerLeaseToken
  lastTips : Option LedgerSourceTips
  lastAgreed : Option (ℕ × JsString)
  replayTargetVerified : Bool
  replayCompleted : Bool

/-! ## Calls -/

/-- A call of the worker. -/
inductive WorkerCall where
  | initializeProfile (profile : NetworkProfile)
  | acquireLease (input : AcquireIndexerLeaseInput)
  | renewLease (token : IndexerLeaseToken) (leaseDurationMs : ℕ)
  | updateIndexerStatus (token : IndexerLeaseToken) (status : IndexerStatusUpdateInput)
  | releaseLease (token : IndexerLeaseToken)
  | haltIndexer (token : IndexerLeaseToken) (status : StatusFields) (errorCode : JsString)
  | getLastCheckpoint
  | getSchemaCatalog
  | persistLedger (profile : NetworkProfile) (projection : LedgerProjection)
      (token : IndexerLeaseToken) (status : IndexerStatusUpdateInput)
  | connect
  | disconnect
  | preflight (profile : NetworkProfile)
  | getValidatedLedgerTips
  | getLedger (ledgerIndex : ℕ)
  | aborted
  | wait (milliseconds : ℕ)
  | ledgerProcessed (ledgerIndex schemaEvents credentialEvents malformedCredentialNodes : ℕ)
  | caughtUp (ledgerIndex : ℕ)
  | failed (error : Thrown)
  | completed

/-- What a call returns. -/
abbrev WorkerCall.Value : WorkerCall → Type
  | acquireLease _ => AcquiredIndexerLease
  | renewLease .. => AcquiredIndexerLease
  | updateIndexerStatus .. => IndexerStatusRow
  | releaseLease _ => IndexerStatusRow
  | haltIndexer .. => IndexerStatusRow
  | getLastCheckpoint => Option Checkpoint
  | getSchemaCatalog => List RegisteredSchema
  | persistLedger .. => PersistResult
  | preflight _ => LedgerSourcePreflight
  | getValidatedLedgerTips => LedgerSourceTips
  | getLedger _ => ValidatedLedger
  | aborted => Bool
  | _ => Unit

abbrev WorkerCall.Answer (c : WorkerCall) : Type := Except Thrown c.Value

/-- A computation of the worker: what it has changed stays changed when it throws. -/
abbrev WorkerM (α : Type) :=
  StateT WorkerState (Program WorkerCall WorkerCall.Answer (Thrown × WorkerState)) α

/-- A call. -/
def ask (c : WorkerCall) : WorkerM c.Value := fun s =>
  .call c fun
    | .ok a => .done (.ok (a, s))
    | .error e => .done (.error (e, s))

/-- A computation that makes no call. -/
def check {α : Type} (x : Except Thrown α) : WorkerM α := fun s =>
  match x with
  | .ok a => .done (.ok (a, s))
  | .error e => .done (.error (e, s))

/-- A loop whose bound is used up. -/
def stopWorker {α : Type} : WorkerM α := fun _ => .stopped

/-- `Promise.allSettled([…])`, and the `catch` of a block. -/
def settled {α : Type} (p : WorkerM α) : WorkerM (Except Thrown α) := fun s =>
  (p s >>= fun r => Program.done (.ok ((Except.ok r.1 : Except Thrown α), r.2))).catchError
    fun e => .done (.ok (.error e.1, e.2))

/-! ## One batch -/

section Worker

variable (P : Platform) (worker : IndexerWorker)

/-- The fields of a status from the tips and the ledger a worker knows. -/
def WorkerState.statusFields (s : WorkerState) : StatusFields where
  primarySourceTip := s.lastTips.map LedgerSourceTips.primary
  secondarySourceTip := s.lastTips.map LedgerSourceTips.secondary
  lastAgreedLedgerIndex := s.lastAgreed.map Prod.fst
  lastAgreedLedgerHash := s.lastAgreed.map Prod.snd

/-- `persistRuntimeStatus` -/
def persistRuntimeStatus (token : IndexerLeaseToken) (state : WritableIndexerStatusState) :
    WorkerM Unit := do
  let s ← get
  let _ ← ask (.updateIndexerStatus token ⟨s.statusFields, state⟩)
  pure ()

/-- `statusForLedger` -/
def statusForLedger (ledger : ValidatedLedger) (tips : LedgerSourceTips)
    (state : WritableIndexerStatusState) : IndexerStatusUpdateInput where
  state := state
  primarySourceTip := some tips.primary
  secondarySourceTip := some tips.secondary
  lastAgreedLedgerIndex := some ledger.ledgerIndex
  lastAgreedLedgerHash := some ledger.ledgerHash

/-- `checkpointFromLedger` -/
def checkpointFromLedger (ledger : ValidatedLedger) : Checkpoint where
  ledgerIndex := ledger.ledgerIndex
  ledgerHash := ledger.ledgerHash
  parentHash := ledger.parentHash
  closeTime := ledger.closeTime
  transactionCount := ledger.transactions.length
  transactionRoot := ledger.transactionRoot

/-- The ledger a worker agrees with. -/
def setLastAgreed (checkpoint : Checkpoint) : WorkerM Unit :=
  modify fun s => { s with lastAgreed := some (checkpoint.ledgerIndex, checkpoint.ledgerHash) }

/-- The state a ledger is persisted with. -/
def ledgerState (ledger : ValidatedLedger) (tips : LedgerSourceTips) :
    WritableIndexerStatusState :=
  if worker.replayTarget.isNone && ledger.ledgerIndex == tips.effective then .ready else .catchingUp

/-- What a loop of `runOnce` carries from one ledger to the next. -/
structure Progress where
  previous : Option Checkpoint
  catalog : SchemaLookup
  processed : ℕ

/-- The index of the next ledger. -/
def nextLedgerIndex (previous : Option Checkpoint) : ℕ :=
  match previous with
  | none => worker.profile.activationLedgerIndex
  | some previous => previous.ledgerIndex + 1

/-- What a ledger that was persisted is reported with. -/
def reportLedger (ledger : ValidatedLedger) (projection : LedgerProjection) :
    PersistResult → WorkerM ℕ
  | .inserted => do
      ask (.ledgerProcessed ledger.ledgerIndex projection.schemaRegistrations.length
        projection.credentialMutations.length projection.malformedCredentialNodes)
      pure 1
  | .alreadyProcessed => pure 0

/-- The body of the loop of `runOnce`. -/
def processLedger (token : IndexerLeaseToken) (tips : LedgerSourceTips) (progress : Progress) :
    WorkerM Progress := do
  let _ ← ask (.renewLease token worker.leaseDurationMs)
  let ledger ← ask (.getLedger (nextLedgerIndex worker progress.previous))
  check (assertLedgerContinuity worker.profile progress.previous ledger)
  let projection ← check (projectLedger P ledger worker.profile progress.catalog)
  let result ← ask (.persistLedger worker.profile projection token
    (statusForLedger ledger tips (ledgerState worker ledger tips)))
  setLastAgreed (checkpointFromLedger ledger)
  let count ← reportLedger ledger projection result
  -- The ledger has the index that was asked for, so the next index is one more.
  pure
    { previous := some (checkpointFromLedger ledger)
      catalog := recordRegistrations worker.profile ledger.ledgerIndex progress.catalog
        projection.schemaRegistrations
      processed := progress.processed + count }

/-- The loop of `runOnce`, for so many ledgers. -/
def processLedgers (token : IndexerLeaseToken) (tips : LedgerSourceTips) :
    ℕ → Progress → WorkerM Progress
  | 0, progress => pure progress
  | count + 1, progress => do
      let progress ← processLedger P worker token tips progress
      processLedgers token tips count progress

/-- The last ledger that a worker processes, by the tips of its source. -/
def processingLimit (tips : LedgerSourceTips) : ℕ :=
  match worker.replayTarget with
  | none => tips.effective
  | some target => target.ledgerIndex

/-- `assertCheckpointHasEvidence`, and the ledger the worker agrees with; the column
`transaction_root` is `NOT NULL`. -/
def adoptCheckpoint : Option Checkpoint → WorkerM Unit
  | none => pure ()
  | some checkpoint => setLastAgreed checkpoint

/-- What is thrown when the target of a replay is ahead of the sources. -/
def replayTargetAhead (index tip : ℕ) : Thrown :=
  .replayTarget .unavailable (js "Replay target " ++ natToString index
    ++ js " is ahead of the XRPL quorum tip " ++ natToString tip)

/-- The tips of the source, where they reach the target. -/
def fetchTips : WorkerM LedgerSourceTips := do
  let tips ← ask .getValidatedLedgerTips
  modify fun s => { s with lastTips := some tips }
  check (ensure
    (worker.replayTarget.isNone || decide (processingLimit worker tips ≤ tips.effective))
    (replayTargetAhead (processingLimit worker tips) tips.effective))
  pure tips

/-- The status that a batch begins with: the last agreed ledger stays authoritative while the next
one is fetched. -/
def announceBatch (token : IndexerLeaseToken) (tips : LedgerSourceTips)
    (previous : Option Checkpoint) : WorkerM Unit :=
  if previous.isNone || decide (tips.effective < nextLedgerIndex worker previous) then
    persistRuntimeStatus token
      (if worker.replayTarget.isNone && previous.isSome
          && decide (tips.effective < nextLedgerIndex worker previous) then .ready
        else .catchingUp)
  else pure ()

/-- `this.replayCompleted = true` -/
def completeReplay : WorkerM Unit := do
  ask .completed
  modify fun s => { s with replayCompleted := true }

/-- What a batch ends with. -/
def finishBatch (tips : LedgerSourceTips) (previous : Option Checkpoint) : WorkerM Unit :=
  if processingLimit worker tips < nextLedgerIndex worker previous then do
    if worker.replayTarget.isSome then completeReplay else pure ()
    ask (.caughtUp ((previous.map Checkpoint.ledgerIndex).getD (processingLimit worker tips)))
  else pure ()

/-- `runOnce` -/
def runOnce (token : IndexerLeaseToken) : WorkerM ℕ := do
  let s ← get
  check (ensure (worker.replayTarget.isNone || s.replayTargetVerified)
    (.replayTarget .unavailable
      (js "Replay target must be quorum-verified before projection starts")))
  let _ ← ask (.renewLease token worker.leaseDurationMs)
  let previous ← ask .getLastCheckpoint
  adoptCheckpoint previous
  let catalogEntries ← ask .getSchemaCatalog
  let tips ← fetchTips worker
  let _ ← ask (.renewLease token worker.leaseDurationMs)
  announceBatch worker token tips previous
  let next := nextLedgerIndex worker previous
  let lastLedgerThisRun := min (processingLimit worker tips) (next + worker.batchSize - 1)
  let progress ← processLedgers P worker token tips (lastLedgerThisRun + 1 - next)
    ⟨previous, catalogMap catalogEntries, 0⟩
  finishBatch worker tips progress.previous
  pure progress.processed

/-! ## The start -/

/-- The ledger at the target of the replay. -/
def verifyReplayTarget (token : IndexerLeaseToken) (tips : LedgerSourceTips) :
    WorkerM (Option ValidatedLedger) :=
  match worker.replayTarget with
  | none => pure none
  | some target => do
      check (ensure (decide (target.ledgerIndex ≤ tips.effective))
        (replayTargetAhead target.ledgerIndex tips.effective))
      let ledger ← ask (.getLedger target.ledgerIndex)
      check (ensure
        (ledger.ledgerIndex == target.ledgerIndex && ledger.ledgerHash == target.ledgerHash)
        (.replayTarget .mismatch (js "XRPL quorum evidence does not match replay target "
          ++ natToString target.ledgerIndex)))
      modify fun s => { s with replayTargetVerified := true }
      let _ ← ask (.renewLease token worker.leaseDurationMs)
      pure (some ledger)

/-- `assertCheckpointMatchesLedger` -/
def assertCheckpointMatchesLedger (checkpoint : Checkpoint) (ledger : ValidatedLedger) :
    Except Thrown Unit :=
  ensure (checkpoint == checkpointFromLedger ledger)
    (.checkpoint .conflict (js "Persisted checkpoint " ++ natToString checkpoint.ledgerIndex
      ++ js " disagrees with the XRPL quorum"))

/-- The ledger at a checkpoint: the one at the target, where it is that, or another one. -/
def agreedCheckpoint (replayLedger : Option ValidatedLedger) (checkpoint : Checkpoint) :
    WorkerM ValidatedLedger :=
  match replayLedger with
  | some ledger =>
      if checkpoint.ledgerIndex = ledger.ledgerIndex then pure ledger
      else ask (.getLedger checkpoint.ledgerIndex)
  | none => ask (.getLedger checkpoint.ledgerIndex)

/-- What `start` asks of the stored checkpoint. -/
def verifyCheckpoint (tips : LedgerSourceTips) (replayLedger : Option ValidatedLedger) :
    Option Checkpoint → WorkerM Unit
  | none => pure ()
  | some checkpoint => do
      check (ensure (worker.replayTarget.all fun target =>
          decide (checkpoint.ledgerIndex ≤ target.ledgerIndex))
        (.replayTarget .exceeded (js "Persisted checkpoint " ++ natToString checkpoint.ledgerIndex
          ++ js " is ahead of replay target "
          ++ natToString ((worker.replayTarget.map ReplayTarget.ledgerIndex).getD 0))))
      check (ensure (decide (checkpoint.ledgerIndex ≤ tips.effective))
        (.source .tipRegression (js "Persisted checkpoint " ++ natToString checkpoint.ledgerIndex
          ++ js " is ahead of the XRPL quorum tip " ++ natToString tips.effective)))
      let ledger ← agreedCheckpoint replayLedger checkpoint
      check (assertCheckpointMatchesLedger checkpoint ledger)
      setLastAgreed checkpoint

/-- The loop of `start`. -/
def runLoop (token : IndexerLeaseToken) : ℕ → WorkerM Unit
  | 0 => stopWorker
  | fuel + 1 => do
      let aborted ← ask .aborted
      if aborted then pure ()
      else do
        let _ ← runOnce P worker token
        let s ← get
        if s.replayCompleted then pure ()
        else do
          ask (.wait worker.pollIntervalMs)
          runLoop token fuel

/-- The `try` of `start`. -/
def startWorker (fuel : ℕ) : WorkerM Unit := do
  ask (.initializeProfile worker.profile)
  let acquired ← ask (.acquireLease
    ⟨worker.profile.profileId, worker.writerId, worker.leaseDurationMs⟩)
  let token := acquired.toIndexerLeaseToken
  modify fun s => { s with activeLease := some token }
  ask .connect
  let _ ← ask (.renewLease token worker.leaseDurationMs)
  let preflight ← ask (.preflight worker.profile)
  modify fun s => { s with lastTips := some preflight.tips }
  let _ ← ask (.renewLease token worker.leaseDurationMs)
  let replayLedger ← verifyReplayTarget worker token preflight.tips
  let checkpoint ← ask .getLastCheckpoint
  verifyCheckpoint worker preflight.tips replayLedger checkpoint
  let _ ← ask (.renewLease token worker.leaseDurationMs)
  persistRuntimeStatus token .catchingUp
  runLoop P worker token fuel

/-- The `catch` of `start`; it returns whether the halt was recorded. -/
def haltWorker : Except Thrown Unit → WorkerM Bool
  | .ok _ => pure false
  | .error error => do
      let s ← get
      match s.activeLease with
      | none => pure false
      | some token => do
          let halted ← settled (ask (.haltIndexer token s.statusFields (sourceErrorCode error)))
          pure halted.isOk

/-- The release of a lease that no halt has retired. -/
def releaseWorker (haltAttempted : Bool) : WorkerM (Except Thrown Unit) := do
  let s ← get
  match haltAttempted, s.activeLease with
  | false, some token => do
      let released ← settled (ask (.releaseLease token))
      pure (released.map fun _ => ())
  | _, _ => pure (.ok ())

/-- The first failure. -/
def firstFailure : List (Except Thrown Unit) → Option Thrown
  | [] => none
  | .error error :: _ => some error
  | .ok _ :: results => firstFailure results

/-- `start` -/
def start (fuel : ℕ) : WorkerM Unit := do
  let s ← get
  check (ensure s.activeLease.isNone (.error (js "IndexerWorker is already running")))
  let outcome ← settled (startWorker P worker fuel)
  let haltAttempted ← haltWorker outcome
  let disconnected ← settled (ask .disconnect)
  let released ← releaseWorker haltAttempted
  modify fun s => { s with activeLease := none }
  match firstFailure [outcome, disconnected, released] with
  | none => pure ()
  | some failure => do
      ask (.failed failure)
      check (.error failure)

end Worker

/-! ## The world -/

/-- The tables of the profile with the clock of the database, and the calls so far. -/
structure WorkerWorld where
  state : FencingState
  history : List (Program.Event WorkerCall.Answer)

/-- A transaction is committed or not, and where it fails it may have been committed all the same.
-/
def Transacts {α : Type}
    (transaction : PersistClock → ProfileRows → Except Thrown (α × ProfileRows))
    (s : FencingState) (answer : Except Thrown α) (s' : FencingState) : Prop :=
  (∃ clock a rows, s.clock ≤ clock.lock ∧ transaction clock s.rows = .ok (a, rows) ∧
    s' = ⟨rows, clock.status.updated⟩ ∧ (answer = .ok a ∨ ∃ error, answer = .error error)) ∨
  ∃ error, answer = .error error ∧ s'.rows = s.rows ∧ s.clock ≤ s'.clock

/-- A query finds something, or it fails. -/
def Queries {α : Type} (value : α) (s : FencingState) (answer : Except Thrown α)
    (s' : FencingState) : Prop :=
  s' = s ∧ (answer = .ok value ∨ ∃ error, answer = .error error)

/-- What a call does to the tables, and what it may be answered. -/
def WorkerCall.Does (P : Platform) (J : JsonbReader) :
    (c : WorkerCall) → FencingState → c.Answer → FencingState → Prop
  | initializeProfile profile, s, answer, s' => ∃ scope others, Transacts (fun _ rows => do
      let rows ← Indexer.initializeProfile scope others profile rows
      pure ((), rows)) s answer s'
  | acquireLease input, s, answer, s' =>
      Transacts (fun clock rows => acquireIndexerLease input clock.status rows) s answer s'
  | renewLease token leaseDurationMs, s, answer, s' => Transacts (fun clock rows =>
      renewIndexerLease token leaseDurationMs clock.status rows) s answer s'
  | updateIndexerStatus token status, s, answer, s' => Transacts (fun clock rows =>
      Db.updateIndexerStatus token status clock.status rows) s answer s'
  | releaseLease token, s, answer, s' =>
      Transacts (fun clock rows => releaseIndexerLease token clock.status rows) s answer s'
  | haltIndexer token status errorCode, s, answer, s' => Transacts (fun clock rows =>
      Db.haltIndexer token status errorCode clock.status rows) s answer s'
  | getLastCheckpoint, s, answer, s' =>
      Queries (Indexer.getLastCheckpoint s.rows.toProjectionRows) s answer s'
  | getSchemaCatalog, s, answer, s' =>
      Queries (Indexer.getSchemaCatalog J s.rows.toProjectionRows) s answer s'
  | persistLedger profile projection token status, s, answer, s' => Transacts (fun clock rows =>
      Indexer.persistLedger P profile projection token status clock rows) s answer s'
  | aborted, s, answer, s' => s' = s ∧ ∃ value, answer = .ok value
  | wait _, s, answer, s' => s' = s ∧ answer = .ok ()
  | completed, s, answer, s' => s' = s ∧ answer = .ok ()
  | _, s, _, s' => s' = s

/-- A call, and its place in the history. -/
def WorkerCall.Performs (P : Platform) (J : JsonbReader) (c : WorkerCall) (w : WorkerWorld)
    (answer : c.Answer) (w' : WorkerWorld) : Prop :=
  c.Does P J w.state answer w'.state ∧ w'.history = w.history ++ [⟨c, answer⟩]

end Indexer
end Xcs
