import Xcs.Indexer.Worker

/-!
# A replay over whole runs

A worker with a target runs on tables with any projection, with sources that answer anything.

* `ReplayGuard` says which calls a replay may make: it persists only ledgers up to the target and
  only after the source has confirmed the target, it is never ready, and it is complete only at the
  index of the target.
* `replay_stops_at_target`: every call of every run is so, and a replay that is complete has the
  hash of the target unless the source has contradicted itself.
* `replay_completes_elsewhere` is a run in which the source does.
-/

namespace Xcs
namespace Indexer

open Js Json Xcs.Core Db Program

/-! ## What a replay may do -/

/-- The source has answered the target. -/
def Confirmed (target : ReplayTarget) (history : List (Event WorkerCall.Answer)) : Prop :=
  ∃ ledger : ValidatedLedger, ⟨.getLedger target.ledgerIndex, .ok ledger⟩ ∈ history ∧
    ledger.ledgerIndex = target.ledgerIndex ∧ ledger.ledgerHash = target.ledgerHash

/-- The source has answered the target, and then another ledger with its index. -/
def Contradicted (target : ReplayTarget) (history : List (Event WorkerCall.Answer)) : Prop :=
  ∃ before after, ∃ ledger : ValidatedLedger,
    history = before ++ ⟨.getLedger target.ledgerIndex, .ok ledger⟩ :: after ∧
      Confirmed target before ∧ ledger.ledgerIndex = target.ledgerIndex ∧
        ledger.ledgerHash ≠ target.ledgerHash

/-- The newest checkpoint. -/
def newestCheckpoint (w : WorkerWorld) : Option Checkpoint :=
  getLastCheckpoint w.state.rows.toProjectionRows

/-- The projection is not past the target. -/
def NotPast (target : ReplayTarget) (w : WorkerWorld) : Prop :=
  ∀ checkpoint ∈ newestCheckpoint w, checkpoint.ledgerIndex ≤ target.ledgerIndex

/-- The newest checkpoint has the index of the target, and its hash unless the source has
contradicted itself. -/
def AtTarget (target : ReplayTarget) (w : WorkerWorld) : Prop :=
  ∃ checkpoint ∈ newestCheckpoint w, checkpoint.ledgerIndex = target.ledgerIndex ∧
    (¬ Contradicted target w.history → checkpoint.ledgerHash = target.ledgerHash)

/-- What a replay may call. -/
def ReplayGuard (target : ReplayTarget) (w : WorkerWorld) : WorkerCall → Prop
  | .persistLedger _ projection _ status =>
      Confirmed target w.history ∧ NotPast target w ∧
        projection.ledger.ledgerIndex ≤ target.ledgerIndex ∧ status.state ≠ .ready
  | .updateIndexerStatus _ status => NotPast target w ∧ status.state ≠ .ready
  | .completed => AtTarget target w
  | .caughtUp ledgerIndex => AtTarget target w ∧ ledgerIndex = target.ledgerIndex
  | _ => True

/-! ## The newest checkpoint -/

/-- A ledger that continues the newest checkpoint becomes the newest one. -/
theorem getLastCheckpoint_append {profile : NetworkProfile} {rows rows' : ProjectionRows}
    {ledger : ValidatedLedger} (hcontinues : Continues profile (getLastCheckpoint rows) ledger)
    (h : rows'.ledgerCheckpoints = rows.ledgerCheckpoints ++ [checkpointRow ledger]) :
    getLastCheckpoint rows' = some (checkpointFromLedger ledger) := by
  unfold getLastCheckpoint latestCheckpoint at hcontinues ⊢
  rw [h, List.argmax_concat]
  cases hnewest : rows.ledgerCheckpoints.argmax (·.ledgerIndex) with
  | none => rfl
  | some newest =>
      rw [hnewest] at hcontinues
      have hlt : newest.ledgerIndex < (checkpointRow ledger).ledgerIndex := by
        show newest.ledgerIndex < ledger.ledgerIndex
        rw [show ledger.ledgerIndex = newest.ledgerIndex + 1 from hcontinues.1]
        exact Nat.lt_succ_self _
      dsimp only
      rw [if_pos hlt]
      rfl

/-- No checkpoint has the index of a ledger that continues the newest one. -/
theorem sameIndex_eq_none {profile : NetworkProfile} {rows : ProjectionRows}
    {ledger : ValidatedLedger} (hcontinues : Continues profile (getLastCheckpoint rows) ledger) :
    sameIndex ledger rows = none := by
  unfold getLastCheckpoint latestCheckpoint at hcontinues
  refine List.find?_eq_none.mpr fun row hrow hindex => ?_
  rw [beq_iff_eq] at hindex
  cases hnewest : rows.ledgerCheckpoints.argmax (·.ledgerIndex) with
  | none =>
      rw [List.argmax_eq_none.mp hnewest] at hrow
      exact absurd hrow List.not_mem_nil
  | some newest =>
      rw [hnewest] at hcontinues
      have hle : row.ledgerIndex ≤ newest.ledgerIndex := List.le_of_mem_argmax hrow hnewest
      have hnext : ledger.ledgerIndex = newest.ledgerIndex + 1 := hcontinues.1
      omega

theorem ledgerCheckpoints_of_ensureNetworkProfile {profile : NetworkProfile}
    {rows rows' : ProjectionRows} (h : ensureNetworkProfile profile rows = .ok rows') :
    rows'.ledgerCheckpoints = rows.ledgerCheckpoints := by
  rcases ensureNetworkProfile_eq_ok.mp h with ⟨-, rfl⟩ | ⟨-, -, rfl⟩
  · rfl
  · rfl

theorem getLastCheckpoint_congr {rows rows' : ProjectionRows}
    (h : rows'.ledgerCheckpoints = rows.ledgerCheckpoints) :
    getLastCheckpoint rows' = getLastCheckpoint rows := by
  unfold getLastCheckpoint latestCheckpoint
  rw [h]

section Calls

variable {P : Platform} {J : JsonbReader} {w w' : WorkerWorld}

theorem Transacts.rule {α : Type}
    {transaction : PersistClock → ProfileRows → Except Thrown (α × ProfileRows)}
    {s s' : FencingState} {answer : Except Thrown α} (h : Transacts transaction s answer s')
    {Q : ProfileRows → Prop} (same : Q s.rows)
    (committed : ∀ clock a rows, transaction clock s.rows = .ok (a, rows) → Q rows) :
    Q s'.rows := by
  rcases h with ⟨clock, a, rows, -, hrows, rfl, -⟩ | ⟨-, -, hrows, -⟩
  · exact committed clock a rows hrows
  · rw [hrows]
    exact same

/-- A transaction that keeps the newest checkpoint where it is committed keeps it. -/
theorem Transacts.getLastCheckpoint_eq {α : Type}
    {transaction : PersistClock → ProfileRows → Except Thrown (α × ProfileRows)}
    {s s' : FencingState} {answer : Except Thrown α} (h : Transacts transaction s answer s')
    (committed : ∀ clock a rows, transaction clock s.rows = .ok (a, rows) →
      Indexer.getLastCheckpoint rows.toProjectionRows
        = Indexer.getLastCheckpoint s.rows.toProjectionRows) :
    Indexer.getLastCheckpoint s'.rows.toProjectionRows
      = Indexer.getLastCheckpoint s.rows.toProjectionRows :=
  h.rule (Q := fun rows => Indexer.getLastCheckpoint rows.toProjectionRows
    = Indexer.getLastCheckpoint s.rows.toProjectionRows) rfl committed

theorem Transacts.of_ok {α : Type}
    {transaction : PersistClock → ProfileRows → Except Thrown (α × ProfileRows)}
    {s s' : FencingState} {a : α} (h : Transacts transaction s (.ok a) s') :
    ∃ clock rows, transaction clock s.rows = .ok (a, rows) ∧ s'.rows = rows := by
  rcases h with ⟨clock, a', rows, -, hrows, rfl, hanswer⟩ | ⟨error, hanswer, -⟩
  · rcases hanswer with hanswer | ⟨error, hanswer⟩
    · obtain rfl := Except.ok.inj hanswer
      exact ⟨clock, rows, hrows, rfl⟩
    · cases hanswer
  · cases hanswer

/-- **Only `persistLedger` changes the checkpoints.** -/
theorem WorkerCall.Performs.newestCheckpoint_eq {c : WorkerCall} {answer : c.Answer}
    (h : c.Performs P J w answer w')
    (hpersist : ∀ profile projection token status,
      c ≠ .persistLedger profile projection token status) :
    newestCheckpoint w' = newestCheckpoint w := by
  have hdoes := h.1
  unfold newestCheckpoint
  cases c with
  | persistLedger profile projection token status => exact absurd rfl (hpersist _ _ _ _)
  | initializeProfile profile =>
      obtain ⟨scope, others, htransacts⟩ := hdoes
      refine htransacts.getLastCheckpoint_eq fun clock a rows hrows => ?_
      simp only [Indexer.initializeProfile, bind_eq_ok, pure_eq_ok, Prod.mk.injEq] at hrows
      obtain ⟨_, ⟨-, -, after, hensure, rfl⟩, -, rfl⟩ := hrows
      exact getLastCheckpoint_congr (ledgerCheckpoints_of_ensureNetworkProfile hensure)
  | acquireLease input =>
      refine Transacts.getLastCheckpoint_eq hdoes fun clock a rows hrows => ?_
      obtain ⟨-, -, -, -, rfl⟩ := acquireIndexerLease_ok hrows
      rfl
  | renewLease token leaseDurationMs =>
      refine Transacts.getLastCheckpoint_eq hdoes fun clock a rows hrows => ?_
      obtain ⟨row, row', -, -, -, -, rfl⟩ := renewIndexerLease_ok hrows
      rfl
  | updateIndexerStatus token status =>
      refine Transacts.getLastCheckpoint_eq hdoes fun clock a rows hrows => ?_
      obtain ⟨row, value, -, -, -, -, -, rfl⟩ := updateIndexerStatus_ok hrows
      rfl
  | releaseLease token =>
      refine Transacts.getLastCheckpoint_eq hdoes fun clock a rows hrows => ?_
      obtain ⟨row, -, -, -, -, rfl⟩ := releaseIndexerLease_ok hrows
      rfl
  | haltIndexer token status errorCode =>
      refine Transacts.getLastCheckpoint_eq hdoes fun clock a rows hrows => ?_
      obtain ⟨row, value, incident, -, -, -, -, -, rfl⟩ := haltIndexer_ok hrows
      rfl
  | getLastCheckpoint =>
      rw [hdoes.1]
  | getSchemaCatalog =>
      rw [hdoes.1]
  | aborted => rw [hdoes.1]
  | wait milliseconds => rw [hdoes.1]
  | completed => rw [hdoes.1]
  | _ => rw [hdoes]

/-- A ledger that was persisted is the newest checkpoint, where it continues the one before. -/
theorem WorkerCall.Performs.newestCheckpoint_persisted {profile : NetworkProfile}
    {projection : LedgerProjection} {token : IndexerLeaseToken} {status : IndexerStatusUpdateInput}
    {result : PersistResult}
    (h : WorkerCall.Performs P J (.persistLedger profile projection token status) w (.ok result) w')
    (hcontinues : Continues profile (newestCheckpoint w) projection.ledger) :
    newestCheckpoint w' = some (checkpointFromLedger projection.ledger) := by
  obtain ⟨clock, rows, hrows, hw'⟩ := Transacts.of_ok h.1
  obtain ⟨-, -, before, after, row, hensure, hpersists, hupdate⟩ := persistLedger_eq_ok.mp hrows
  obtain ⟨_, _, -, -, -, -, -, rfl⟩ := updateIndexerStatus_ok hupdate
  have hsame := ledgerCheckpoints_of_ensureNetworkProfile hensure
  have hbefore : Continues profile (Indexer.getLastCheckpoint before) projection.ledger := by
    rw [getLastCheckpoint_congr hsame]
    exact hcontinues
  unfold newestCheckpoint
  rw [hw']
  cases hpersists with
  | again found =>
      rw [sameIndex_eq_none hbefore] at found
      cases found
  | next fresh written =>
      obtain ⟨-, -, hcheckpoints, -⟩ := persistProjection_ok written
      exact getLastCheckpoint_append hbefore hcheckpoints

end Calls

/-! ## Rules for the worker

`Meets target P J w p Q`: in the world `w`, whatever the worker has in its fields, `p` makes only
calls that a replay may make, and what it returns is as `Q` says. -/

/-- What a computation of the worker does. -/
def Meets (target : ReplayTarget) (P : Platform) (J : JsonbReader) {α : Type} (w : WorkerWorld)
    (p : WorkerM α) (Q : WorkerWorld → α → Prop) : Prop :=
  ∀ s, EnsuresOn (WorkerCall.Performs P J) (ReplayGuard target)
    (fun w' result => ∀ a s', result = .ok (a, s') → Q w' a) w (p s)

section Rules

variable {target : ReplayTarget} {P : Platform} {J : JsonbReader} {α β : Type} {w : WorkerWorld}
  {Q : WorkerWorld → α → Prop}

theorem Meets.pure {a : α} (h : Q w a) : Meets target P J w (pure a) Q := by
  rintro s _ _ ⟨⟩
  exact h

theorem Meets.mono {p : WorkerM α} {Q' : WorkerWorld → α → Prop} (h : Meets target P J w p Q)
    (sub : ∀ w' a, Q w' a → Q' w' a) : Meets target P J w p Q' :=
  fun s => (h s).mono fun w' _ hresult a s' heq => sub w' a (hresult a s' heq)

theorem Meets.bind {p : WorkerM β} {f : β → WorkerM α} {R : WorkerWorld → β → Prop}
    (hp : Meets target P J w p R) (hf : ∀ w' b, R w' b → Meets target P J w' (f b) Q) :
    Meets target P J w (p >>= f) Q := by
  intro s
  refine EnsuresOn.bind (P := fun w' result => ∀ b s', result = .ok (b, s') → R w' b) ?_ ?_ (hp s)
  · rintro w' ⟨b, s'⟩ hb
    exact hf w' b (hb b s' rfl) s'
  · rintro w' e - _ _ ⟨⟩

theorem Meets.ask {c : WorkerCall} {Q : WorkerWorld → c.Value → Prop}
    (hguard : ReplayGuard target w c)
    (hanswer : ∀ a w', c.Performs P J w (.ok a) w' → Q w' a) :
    Meets target P J w (ask c) Q := by
  refine fun s => ⟨hguard, fun answer w' hperforms => ?_⟩
  cases answer with
  | ok a =>
      rintro _ _ ⟨⟩
      exact hanswer a w' hperforms
  | error e => rintro _ _ ⟨⟩

theorem Meets.ask_true {c : WorkerCall} (hguard : ReplayGuard target w c) :
    Meets target P J w (Indexer.ask c) fun _ _ => True :=
  Meets.ask hguard fun _ _ _ => trivial

theorem Meets.check {x : Except Thrown α} (h : ∀ a, x = .ok a → Q w a) :
    Meets target P J w (check x) Q := by
  intro s
  cases x with
  | ok a =>
      rintro _ _ ⟨⟩
      exact h a rfl
  | error e => rintro _ _ ⟨⟩

theorem Meets.get {Q : WorkerWorld → WorkerState → Prop} (h : ∀ s, Q w s) :
    Meets target P J w (MonadState.get : WorkerM WorkerState) Q := by
  rintro s _ _ ⟨⟩
  exact h s

theorem Meets.modify {f : WorkerState → WorkerState} {Q : WorkerWorld → Unit → Prop} (h : Q w ()) :
    Meets target P J w (modify f : WorkerM Unit) Q := by
  rintro s _ _ ⟨⟩
  exact h

theorem Meets.stopWorker : Meets target P J w (stopWorker : WorkerM α) Q :=
  fun _ => trivial

theorem Meets.settled {p : WorkerM α} {Q : WorkerWorld → Except Thrown α → Prop}
    {R : WorkerWorld → α → Prop} (hp : Meets target P J w p R) (hok : ∀ w' a, R w' a → Q w' (.ok a))
    (herror : ∀ w' e, Q w' (.error e)) : Meets target P J w (settled p) Q := by
  intro s
  refine EnsuresOn.catchError
    (P := fun w' result => ∀ a s', result = .ok (a, s') → ∃ a', a = .ok a' ∧ R w' a') ?_ ?_
    (EnsuresOn.bind (P := fun w' result => ∀ a s', result = .ok (a, s') → R w' a) ?_ ?_ (hp s))
  · rintro w' ⟨result, s'⟩ hresult _ _ ⟨⟩
    obtain ⟨a, rfl, ha⟩ := hresult result s' rfl
    exact hok w' a ha
  · rintro w' ⟨e, s'⟩ - _ _ ⟨⟩
    exact herror w' e
  · rintro w' ⟨a, s'⟩ ha _ _ ⟨⟩
    exact ⟨a, rfl, ha a s' rfl⟩
  · rintro w' e - _ _ ⟨⟩

end Rules

/-! ## The invariant of a replay -/

theorem Confirmed.append {target : ReplayTarget} {history : List (Event WorkerCall.Answer)}
    (h : Confirmed target history) (events : List (Event WorkerCall.Answer)) :
    Confirmed target (history ++ events) := by
  obtain ⟨ledger, hmem, hledger⟩ := h
  exact ⟨ledger, List.mem_append_left _ hmem, hledger⟩

theorem Contradicted.append {target : ReplayTarget} {history : List (Event WorkerCall.Answer)}
    (h : Contradicted target history) (events : List (Event WorkerCall.Answer)) :
    Contradicted target (history ++ events) := by
  obtain ⟨before, after, ledger, rfl, hledger⟩ := h
  exact ⟨before, after ++ events, ledger, by rw [List.append_assoc, List.cons_append], hledger⟩

/-- A checkpoint may be the newest one of a replay. -/
def OnCourse (target : ReplayTarget) (history : List (Event WorkerCall.Answer))
    (checkpoint : Checkpoint) : Prop :=
  checkpoint.ledgerIndex ≤ target.ledgerIndex ∧
    (checkpoint.ledgerIndex = target.ledgerIndex → ¬ Contradicted target history →
      checkpoint.ledgerHash = target.ledgerHash)

/-- The source has confirmed the target, and the newest checkpoint, which is `previous`, is on the
way to it. -/
structure Replaying (target : ReplayTarget) (previous : Option Checkpoint) (w : WorkerWorld) :
    Prop where
  confirmed : Confirmed target w.history
  newest : newestCheckpoint w = previous
  onCourse : ∀ checkpoint ∈ previous, OnCourse target w.history checkpoint

section Invariant

variable {target : ReplayTarget} {P : Platform} {J : JsonbReader} {w w' : WorkerWorld}
  {previous : Option Checkpoint}

theorem Replaying.notPast (h : Replaying target previous w) : NotPast target w := by
  intro checkpoint hcheckpoint
  rw [h.newest] at hcheckpoint
  exact (h.onCourse checkpoint hcheckpoint).1

theorem Replaying.atTarget {checkpoint : Checkpoint} (h : Replaying target (some checkpoint) w)
    (hindex : checkpoint.ledgerIndex = target.ledgerIndex) : AtTarget target w :=
  ⟨checkpoint, h.newest, hindex, (h.onCourse checkpoint rfl).2 hindex⟩

/-- A call that persists no ledger keeps the invariant. -/
theorem Replaying.step {c : WorkerCall} {answer : c.Answer} (h : Replaying target previous w)
    (hperforms : c.Performs P J w answer w')
    (hpersist : ∀ profile projection token status,
      c ≠ .persistLedger profile projection token status) : Replaying target previous w' where
  confirmed := by
    rw [hperforms.2]
    exact h.confirmed.append _
  newest := (hperforms.newestCheckpoint_eq hpersist).trans h.newest
  onCourse checkpoint hcheckpoint := by
    obtain ⟨hle, hhash⟩ := h.onCourse checkpoint hcheckpoint
    refine ⟨hle, fun hindex hnot => hhash hindex fun hcontradicted => hnot ?_⟩
    rw [hperforms.2]
    exact hcontradicted.append _

/-- **A step that persists no ledger.** -/
theorem Replaying.asks {c : WorkerCall} (h : Replaying target previous w)
    (hguard : ReplayGuard target w c)
    (hpersist : ∀ profile projection token status,
      c ≠ .persistLedger profile projection token status) :
    Meets target P J w (ask c) fun w' _ => Replaying target previous w' :=
  Meets.ask hguard fun _ _ hperforms => h.step hperforms hpersist

/-- A ledger that the source has answered may be the next checkpoint. -/
theorem onCourse_checkpointFromLedger {ledger : ValidatedLedger} (h : Confirmed target w.history)
    (hle : ledger.ledgerIndex ≤ target.ledgerIndex)
    (hhistory : w'.history = w.history ++ [⟨.getLedger ledger.ledgerIndex, .ok ledger⟩])
    {events : List (Event WorkerCall.Answer)} :
    OnCourse target (w'.history ++ events) (checkpointFromLedger ledger) := by
  refine ⟨hle, fun hindex hnot => ?_⟩
  by_contra hhash
  have hledger : ledger.ledgerIndex = target.ledgerIndex := hindex
  refine hnot (Contradicted.append ?_ events)
  rw [hhistory, hledger]
  exact ⟨w.history, [], ledger, rfl, h, hledger, hhash⟩

end Invariant

/-! ## One ledger -/

section Batch

variable {P : Platform} {J : JsonbReader} {worker : IndexerWorker} {target : ReplayTarget}
  {token : IndexerLeaseToken} {tips : LedgerSourceTips} {w : WorkerWorld}
  {previous : Option Checkpoint}

theorem ledgerState_of_replay (htarget : worker.replayTarget = some target)
    (ledger : ValidatedLedger) : ledgerState worker ledger tips = .catchingUp := by
  rw [ledgerState, htarget]
  rfl

theorem processingLimit_of_replay (htarget : worker.replayTarget = some target) :
    processingLimit worker tips = target.ledgerIndex := by
  rw [processingLimit, htarget]

theorem nextLedgerIndex_of_continues {ledger : ValidatedLedger}
    (h : Continues worker.profile previous ledger) :
    ledger.ledgerIndex = nextLedgerIndex worker previous := by
  cases previous with
  | none => exact h.1
  | some previous => exact h.1

theorem reportLedger_meets (h : Replaying target previous w) (ledger : ValidatedLedger)
    (projection : LedgerProjection) (result : PersistResult) :
    Meets target P J w (reportLedger ledger projection result)
      fun w' _ => Replaying target previous w' := by
  cases result with
  | inserted =>
      refine Meets.bind (h.asks trivial fun _ _ _ _ => (nofun)) fun w' _ h' => ?_
      exact Meets.pure h'
  | alreadyProcessed => exact Meets.pure h

/-- **One ledger.**  A ledger up to the target is persisted, and it is the one whose turn it is. -/
theorem processLedger_meets (htarget : worker.replayTarget = some target) {progress : Progress}
    (h : Replaying target progress.previous w)
    (hnext : nextLedgerIndex worker progress.previous ≤ target.ledgerIndex) :
    Meets target P J w (processLedger P worker token tips progress) fun w' progress' =>
      Replaying target progress'.previous w' ∧
        nextLedgerIndex worker progress'.previous
          = nextLedgerIndex worker progress.previous + 1 := by
  refine Meets.bind (h.asks trivial fun _ _ _ _ => (nofun)) fun w₁ _ h₁ => ?_
  refine Meets.bind (R := fun w₂ ledger => Replaying target progress.previous w₂ ∧
      (Continues worker.profile progress.previous ledger → ∀ events,
        OnCourse target (w₂.history ++ events) (checkpointFromLedger ledger)))
    (Meets.ask trivial fun ledger w₂ hperforms => ?_) fun w₂ ledger ⟨h₂, hcourse⟩ => ?_
  · refine ⟨h₁.step hperforms fun _ _ _ _ => (nofun), fun hcontinues events => ?_⟩
    have hindex := nextLedgerIndex_of_continues hcontinues
    refine onCourse_checkpointFromLedger h₁.confirmed (hindex ▸ hnext) ?_
    rw [hindex]
    exact hperforms.2
  refine Meets.bind (Meets.check (Q := fun w' _ => w' = w₂ ∧
    Continues worker.profile progress.previous ledger) fun _ hcheck =>
      ⟨rfl, assertLedgerContinuity_eq_ok.mp hcheck⟩) ?_
  rintro w₂ _ ⟨rfl, hcontinues⟩
  have hindex := nextLedgerIndex_of_continues hcontinues
  refine Meets.bind (Meets.check (Q := fun w' projection => w' = w₂ ∧
    projection.ledger = ledger)
    fun projection hproject => ⟨rfl, projectLedger_ledger hproject⟩) ?_
  rintro w₂ projection ⟨rfl, rfl⟩
  refine Meets.bind (R := fun w₃ _ =>
    Replaying target (some (checkpointFromLedger projection.ledger)) w₃)
    (Meets.ask ?_ fun result w₃ hperforms => ?_) fun w₃ result h₃ => ?_
  · refine ⟨h₂.confirmed, h₂.notPast, hindex ▸ hnext, ?_⟩
    show ledgerState worker projection.ledger tips ≠ .ready
    rw [ledgerState_of_replay htarget]
    nofun
  · refine ⟨?_, hperforms.newestCheckpoint_persisted ?_, ?_⟩
    · rw [hperforms.2]
      exact h₂.confirmed.append _
    · rw [h₂.newest]
      exact hcontinues
    · rintro _ ⟨⟩
      rw [hperforms.2]
      exact hcourse hcontinues _
  refine Meets.bind (Meets.modify (Q := fun w₄ _ =>
    Replaying target (some (checkpointFromLedger projection.ledger)) w₄) h₃) fun w₄ _ h₄ => ?_
  refine Meets.bind (reportLedger_meets h₄ _ _ _) fun w₅ _ h₅ => Meets.pure ⟨h₅, ?_⟩
  show projection.ledger.ledgerIndex + 1 = _
  rw [hindex]

/-- **The ledgers of a batch.**  By induction on their number. -/
theorem processLedgers_meets (htarget : worker.replayTarget = some target) :
    ∀ {count : ℕ} {progress : Progress} {w : WorkerWorld}, Replaying target progress.previous w →
      nextLedgerIndex worker progress.previous + count ≤ target.ledgerIndex + 1 ∨ count = 0 →
      Meets target P J w (processLedgers P worker token tips count progress) fun w' progress' =>
        Replaying target progress'.previous w' := by
  intro count
  induction count with
  | zero => exact fun h _ => Meets.pure h
  | succ count ih =>
      intro progress w h hcount
      refine Meets.bind (processLedger_meets htarget h (by omega)) ?_
      rintro w' progress' ⟨h', hnext⟩
      exact ih h' (Or.inl (by omega))

/-! ## One batch -/

theorem adoptCheckpoint_meets (h : Replaying target previous w) (checkpoint : Option Checkpoint) :
    Meets target P J w (adoptCheckpoint checkpoint) fun w' _ => Replaying target previous w' := by
  cases checkpoint with
  | none => exact Meets.pure h
  | some checkpoint => exact Meets.modify h

theorem fetchTips_meets (h : Replaying target previous w) :
    Meets target P J w (fetchTips worker) fun w' _ => Replaying target previous w' := by
  refine Meets.bind (h.asks trivial fun _ _ _ _ => (nofun)) fun w₁ tips h₁ => ?_
  refine Meets.bind (Meets.modify (Q := fun w' _ => Replaying target previous w') h₁)
    fun w₂ _ h₂ => ?_
  refine Meets.bind (Meets.check (Q := fun w' _ => Replaying target previous w') fun _ _ => h₂)
    fun w₃ _ h₃ => ?_
  exact Meets.pure h₃

theorem persistRuntimeStatus_meets (h : Replaying target previous w)
    {state : WritableIndexerStatusState} (hstate : state ≠ .ready) :
    Meets target P J w (persistRuntimeStatus token state)
      fun w' _ => Replaying target previous w' := by
  refine Meets.bind (Meets.get (Q := fun w' _ => Replaying target previous w') fun _ => h)
    fun w₁ s h₁ => ?_
  refine Meets.bind (h₁.asks ⟨h₁.notPast, hstate⟩ fun _ _ _ _ => (nofun)) fun w₂ _ h₂ => ?_
  exact Meets.pure h₂

theorem announceBatch_meets (htarget : worker.replayTarget = some target)
    (h : Replaying target previous w) :
    Meets target P J w (announceBatch worker token tips previous)
      fun w' _ => Replaying target previous w' := by
  rw [announceBatch]
  split_ifs with hannounce hready
  · rw [htarget] at hready
    simp at hready
  · exact persistRuntimeStatus_meets h (nofun)
  · exact Meets.pure h

/-- **The end of a batch.**  The index that comes next is past the target, and it is one more than
the newest checkpoint, which is not past it. -/
theorem finishBatch_meets (htarget : worker.replayTarget = some target)
    (h : Replaying target previous w) :
    Meets target P J w (finishBatch worker tips previous)
      fun w' _ => Replaying target previous w' := by
  rw [finishBatch, processingLimit_of_replay htarget, htarget]
  split_ifs with hpast hsome
  · cases previous with
    | none => exact absurd hpast (Nat.not_lt.mpr (worker.activation_le target htarget))
    | some checkpoint =>
        have hindex : checkpoint.ledgerIndex = target.ledgerIndex := by
          have hle := (h.onCourse checkpoint rfl).1
          have hlt : target.ledgerIndex < checkpoint.ledgerIndex + 1 := hpast
          omega
        refine Meets.bind (R := fun w' _ => Replaying target (some checkpoint) w') ?_
          fun w₁ _ h₁ => h₁.asks ⟨h₁.atTarget hindex, hindex⟩ fun _ _ _ _ => (nofun)
        exact Meets.bind (h.asks (h.atTarget hindex) fun _ _ _ _ => (nofun))
          fun w₁ _ h₁ => Meets.modify h₁
  · exact absurd rfl hsome
  · exact Meets.pure h

/-- **A batch.** -/
theorem runOnce_meets (htarget : worker.replayTarget = some target)
    (h : Replaying target previous w) :
    Meets target P J w (runOnce P worker token)
      fun w' _ => ∃ previous, Replaying target previous w' := by
  refine Meets.bind (Meets.get (Q := fun w' _ => Replaying target previous w') fun _ => h)
    fun w₁ s h₁ => ?_
  refine Meets.bind (Meets.check (Q := fun w' _ => Replaying target previous w') fun _ _ => h₁)
    fun w₂ _ h₂ => ?_
  refine Meets.bind (h₂.asks trivial fun _ _ _ _ => (nofun)) fun w₃ _ h₃ => ?_
  refine Meets.bind (R := fun w' found => Replaying target found w')
    (Meets.ask trivial fun found w' hperforms => ?_) fun w₄ found h₄ => ?_
  · obtain ⟨-, hfound⟩ := hperforms.1
    rcases hfound with hfound | ⟨error, hfound⟩
    · obtain rfl := Except.ok.inj hfound
      have hnewest : newestCheckpoint w₃ = previous := h₃.newest
      rw [newestCheckpoint] at hnewest
      rw [hnewest]
      exact h₃.step hperforms fun _ _ _ _ => (nofun)
    · cases hfound
  refine Meets.bind (adoptCheckpoint_meets h₄ found) fun w₅ _ h₅ => ?_
  refine Meets.bind (h₅.asks trivial fun _ _ _ _ => (nofun)) fun w₆ entries h₆ => ?_
  refine Meets.bind (fetchTips_meets h₆) fun w₇ tips h₇ => ?_
  refine Meets.bind (h₇.asks trivial fun _ _ _ _ => (nofun)) fun w₈ _ h₈ => ?_
  refine Meets.bind (announceBatch_meets htarget h₈) fun w₉ _ h₉ => ?_
  refine Meets.bind (processLedgers_meets htarget h₉ ?_) fun w₁₀ progress h₁₀ => ?_
  · rw [processingLimit_of_replay htarget]
    show nextLedgerIndex worker found + _ ≤ _ ∨ _
    omega
  refine Meets.bind (finishBatch_meets htarget h₁₀) fun w₁₁ _ h₁₁ => ?_
  exact Meets.pure ⟨_, h₁₁⟩

end Batch

/-! ## The start -/

section Start

variable {P : Platform} {J : JsonbReader} {worker : IndexerWorker} {target : ReplayTarget}
  {token : IndexerLeaseToken} {tips : LedgerSourceTips} {w : WorkerWorld}
  {previous : Option Checkpoint}

/-- **The target is confirmed.** -/
theorem verifyReplayTarget_meets (htarget : worker.replayTarget = some target) :
    Meets target P J w (verifyReplayTarget worker token tips) fun w' found =>
      Confirmed target w'.history ∧ ∃ ledger, found = some ledger ∧
        ledger.ledgerIndex = target.ledgerIndex ∧ ledger.ledgerHash = target.ledgerHash := by
  rw [verifyReplayTarget, htarget]
  refine Meets.bind (Meets.check (Q := fun _ _ => True) fun _ _ => trivial) fun w₁ _ _ => ?_
  refine Meets.bind (R := fun w' ledger => ⟨.getLedger target.ledgerIndex, .ok ledger⟩ ∈ w'.history)
    (Meets.ask trivial fun ledger w' hperforms => ?_) fun w₂ ledger hmem => ?_
  · rw [hperforms.2]
    exact List.mem_append_right _ (List.mem_singleton_self _)
  refine Meets.bind (Meets.check (Q := fun w' _ => Confirmed target w'.history ∧
    ledger.ledgerIndex = target.ledgerIndex ∧ ledger.ledgerHash = target.ledgerHash)
    fun _ hcheck => ?_) ?_
  · have hledger : ledger.ledgerIndex = target.ledgerIndex ∧
        ledger.ledgerHash = target.ledgerHash :=
      by simpa using ensure_eq_ok.mp hcheck
    exact ⟨⟨ledger, hmem, hledger⟩, hledger⟩
  rintro w₃ _ ⟨hconfirmed, hledger⟩
  refine Meets.bind (Meets.modify (Q := fun w' _ => Confirmed target w'.history) hconfirmed)
    fun w₄ _ h₄ => ?_
  refine Meets.bind (R := fun w' _ => Confirmed target w'.history)
    (Meets.ask trivial fun _ w' hperforms => ?_) fun w₅ _ h₅ =>
      Meets.pure ⟨h₅, ledger, rfl, hledger⟩
  rw [hperforms.2]
  exact h₄.append _

/-- **The stored checkpoint is on the way to the target.**  One at the index of the target is
compared with the ledger that confirmed the target. -/
theorem verifyCheckpoint_meets (htarget : worker.replayTarget = some target)
    {ledger : ValidatedLedger} (hindex : ledger.ledgerIndex = target.ledgerIndex)
    (hhash : ledger.ledgerHash = target.ledgerHash) (hconfirmed : Confirmed target w.history)
    (hnewest : newestCheckpoint w = previous) :
    Meets target P J w (verifyCheckpoint worker tips (some ledger) previous)
      fun w' _ => Replaying target previous w' := by
  cases previous with
  | none => exact Meets.pure ⟨hconfirmed, hnewest, nofun⟩
  | some checkpoint =>
      rw [verifyCheckpoint, htarget]
      refine Meets.bind (Meets.check (Q := fun w' _ => w' = w ∧
        checkpoint.ledgerIndex ≤ target.ledgerIndex) fun _ hcheck =>
          ⟨rfl, by simpa using ensure_eq_ok.mp hcheck⟩) ?_
      rintro w _ ⟨rfl, hle⟩
      refine Meets.bind (Meets.check (Q := fun w' _ => w' = w) fun _ _ => rfl) ?_
      rintro w _ rfl
      -- The invariant holds of the checkpoint, once the ledger at its index is the one at the target.
      have hreplaying (hat : checkpoint.ledgerIndex = target.ledgerIndex →
          checkpoint.ledgerHash = target.ledgerHash) : Replaying target (some checkpoint) w :=
        ⟨hconfirmed, hnewest, by rintro _ ⟨⟩; exact ⟨hle, fun heq _ => hat heq⟩⟩
      rw [agreedCheckpoint]
      split_ifs with hsame
      · refine Meets.bind (Meets.pure (Q := fun w' a => w' = w ∧ a = ledger) ⟨rfl, rfl⟩) ?_
        rintro w a ⟨rfl, rfl⟩
        refine Meets.bind (Meets.check (Q := fun w' _ => Replaying target (some checkpoint) w')
          fun _ hcheck => hreplaying fun _ => ?_) fun w₃ _ h₃ => Meets.modify h₃
        have heq : checkpoint = checkpointFromLedger a := by simpa using ensure_eq_ok.mp hcheck
        rw [heq]
        exact hhash
      · have hne : checkpoint.ledgerIndex ≠ target.ledgerIndex := fun heq =>
          hsame (heq.trans hindex.symm)
        refine Meets.bind ((hreplaying fun heq => absurd heq hne).asks trivial
          fun _ _ _ _ => (nofun)) fun w₂ _ h₂ => ?_
        refine Meets.bind (Meets.check (Q := fun w' _ => Replaying target (some checkpoint) w')
          fun _ _ => h₂) fun w₃ _ h₃ => Meets.modify h₃

/-- The loop of `start`, by induction on its bound. -/
theorem runLoop_meets (htarget : worker.replayTarget = some target) {fuel : ℕ} {w : WorkerWorld}
    (h : ∃ previous, Replaying target previous w) :
    Meets target P J w (runLoop P worker token fuel)
      fun w' _ => ∃ previous, Replaying target previous w' := by
  induction fuel generalizing w with
  | zero => exact Meets.stopWorker
  | succ fuel ih =>
      obtain ⟨previous, h⟩ := h
      refine Meets.bind (h.asks trivial fun _ _ _ _ => (nofun)) fun w₁ aborted h₁ => ?_
      cases aborted with
      | true => exact Meets.pure ⟨previous, h₁⟩
      | false =>
          refine Meets.bind (runOnce_meets htarget h₁) ?_
          rintro w₂ - ⟨previous, h₂⟩
          refine Meets.bind (Meets.get (Q := fun w' _ => Replaying target previous w') fun _ => h₂)
            fun w₃ s h₃ => ?_
          cases hcompleted : s.replayCompleted with
          | true =>
              rw [if_pos rfl]
              exact Meets.pure ⟨previous, h₃⟩
          | false =>
              rw [if_neg Bool.false_ne_true]
              exact Meets.bind (h₃.asks trivial fun _ _ _ _ => (nofun)) fun w₄ _ h₄ =>
                ih ⟨previous, h₄⟩

theorem startWorker_meets (htarget : worker.replayTarget = some target) {fuel : ℕ} :
    Meets target P J w (startWorker P worker fuel)
      fun w' _ => ∃ previous, Replaying target previous w' := by
  refine Meets.bind (Meets.ask_true trivial) fun w₁ _ _ => ?_
  refine Meets.bind (Meets.ask_true trivial) fun w₂ acquired _ => ?_
  refine Meets.bind (Meets.modify (Q := fun _ _ => True) trivial) fun w₃ _ _ => ?_
  refine Meets.bind (Meets.ask_true trivial) fun w₄ _ _ => ?_
  refine Meets.bind (Meets.ask_true trivial) fun w₅ _ _ => ?_
  refine Meets.bind (Meets.ask_true trivial) fun w₆ preflight _ => ?_
  refine Meets.bind (Meets.modify (Q := fun _ _ => True) trivial) fun w₇ _ _ => ?_
  refine Meets.bind (Meets.ask_true trivial) fun w₈ _ _ => ?_
  refine Meets.bind (verifyReplayTarget_meets htarget) ?_
  rintro w₉ _ ⟨hconfirmed, ledger, rfl, hindex, hhash⟩
  refine Meets.bind (R := fun w' found => Confirmed target w'.history ∧ newestCheckpoint w' = found)
    (Meets.ask trivial fun found w' hperforms => ?_) ?_
  · obtain ⟨hstate, hfound⟩ := hperforms.1
    rw [hperforms.2, newestCheckpoint, hstate]
    rcases hfound with hfound | ⟨error, hfound⟩
    · exact ⟨hconfirmed.append _, (Except.ok.inj hfound).symm⟩
    · cases hfound
  rintro w₁₀ checkpoint ⟨hconfirmed, hnewest⟩
  refine Meets.bind (verifyCheckpoint_meets htarget hindex hhash hconfirmed hnewest)
    fun w₁₁ _ h₁₁ => ?_
  refine Meets.bind (h₁₁.asks trivial fun _ _ _ _ => (nofun)) fun w₁₂ _ h₁₂ => ?_
  refine Meets.bind (persistRuntimeStatus_meets h₁₂ (nofun)) fun w₁₃ _ h₁₃ => ?_
  exact runLoop_meets htarget ⟨checkpoint, h₁₃⟩

/-- A call after the `try` of `start`, where what came before it may have failed. -/
theorem settled_asks {c : WorkerCall} {p : Prop} (hguard : ReplayGuard target w c)
    (hpersist : ∀ profile projection token status,
      c ≠ .persistLedger profile projection token status)
    (h : p → ∃ previous, Replaying target previous w) :
    Meets target P J w (settled (ask c)) fun w' result =>
      p ∧ result.isOk → ∃ previous, Replaying target previous w' := by
  by_cases hp : p
  · obtain ⟨previous, h⟩ := h hp
    exact Meets.settled (h.asks hguard hpersist) (fun _ _ h' _ => ⟨previous, h'⟩)
      fun _ _ h' => (nomatch h'.2)
  · exact Meets.settled (Meets.ask_true hguard) (fun _ _ _ h' => absurd h'.1 hp)
      fun _ _ h' => (nomatch h'.2)

theorem haltWorker_meets {outcome : Except Thrown Unit}
    (h : outcome.isOk → ∃ previous, Replaying target previous w) :
    Meets target P J w (haltWorker outcome) fun w' _ =>
      outcome.isOk → ∃ previous, Replaying target previous w' := by
  cases outcome with
  | ok _ => exact Meets.pure h
  | error error =>
      refine Meets.bind (Meets.get (Q := fun _ _ => True) fun _ => trivial) fun w₁ s _ => ?_
      cases s.activeLease with
      | none => exact Meets.pure nofun
      | some token =>
          exact Meets.bind (settled_asks (p := False) trivial (fun _ _ _ _ => (nofun)) nofun)
            fun _ _ _ => Meets.pure nofun

theorem releaseWorker_meets {p : Prop} {haltAttempted : Bool}
    (h : p → ∃ previous, Replaying target previous w) :
    Meets target P J w (releaseWorker haltAttempted) fun w' result =>
      p ∧ result.isOk → ∃ previous, Replaying target previous w' := by
  refine Meets.bind (Meets.get (Q := fun w' _ => p → ∃ previous, Replaying target previous w')
    fun _ => h) fun w₁ s h₁ => ?_
  split
  · refine Meets.bind (settled_asks trivial (fun _ _ _ _ => (nofun)) h₁) fun w₂ released h₂ => ?_
    refine Meets.pure fun ⟨hp, hok⟩ => h₂ ⟨hp, ?_⟩
    cases released with
    | ok _ => rfl
    | error error => exact hok
  · exact Meets.pure fun hp => h₁ hp.1

/-- **A start.**  It returns only if its `try` and the calls after it have. -/
theorem start_meets (htarget : worker.replayTarget = some target) {fuel : ℕ} :
    Meets target P J w (start P worker fuel)
      fun w' _ => ∃ previous, Replaying target previous w' := by
  refine Meets.bind (Meets.get (Q := fun _ _ => True) fun _ => trivial) fun w₁ _ _ => ?_
  refine Meets.bind (Meets.check (Q := fun _ _ => True) fun _ _ => trivial) fun w₂ _ _ => ?_
  refine Meets.bind (Meets.settled (Q := fun w' (outcome : Except Thrown Unit) =>
    outcome.isOk → ∃ previous, Replaying target previous w') (startWorker_meets htarget)
      (fun _ _ h _ => h) (fun _ _ => nofun)) fun w₃ outcome h₃ => ?_
  refine Meets.bind (haltWorker_meets h₃) fun w₄ haltAttempted h₄ => ?_
  refine Meets.bind (settled_asks trivial (fun _ _ _ _ => (nofun)) h₄) fun w₅ disconnected h₅ => ?_
  refine Meets.bind (releaseWorker_meets h₅) fun w₆ released h₆ => ?_
  refine Meets.bind (Meets.modify (Q := fun w' _ => (outcome.isOk ∧ disconnected.isOk) ∧
    released.isOk → ∃ previous, Replaying target previous w') h₆) fun w₇ _ h₇ => ?_
  rcases outcome with error | _
  · exact Meets.bind (Meets.ask_true trivial) fun _ _ _ => Meets.check nofun
  rcases disconnected with error | _
  · exact Meets.bind (Meets.ask_true trivial) fun _ _ _ => Meets.check nofun
  rcases released with error | _
  · exact Meets.bind (Meets.ask_true trivial) fun _ _ _ => Meets.check nofun
  exact Meets.pure (h₇ ⟨⟨rfl, rfl⟩, rfl⟩)

end Start

/-- **A replay stops at its target.**  However the source answers, and whatever the tables hold:
each call of each run is one that a replay may make, and it does not return where the projection is
past the target. -/
theorem replay_stops_at_target (P : Platform) (J : JsonbReader) (worker : IndexerWorker)
    (target : ReplayTarget) (htarget : worker.replayTarget = some target) (fuel : ℕ)
    (fields : WorkerState) (state : FencingState) {w : WorkerWorld}
    {p : Program WorkerCall WorkerCall.Answer (Thrown × WorkerState) (Unit × WorkerState)}
    {events : List (Event WorkerCall.Answer)}
    (hrun : Run (StepOn (WorkerCall.Performs P J)) (⟨state, []⟩, start P worker fuel fields) events
      (w, p)) :
    (∀ event w' p', StepOn (WorkerCall.Performs P J) (w, p) event (w', p') →
      ReplayGuard target w event.1) ∧
    ∀ result, p = .done (.ok result) → NotPast target w := by
  have hensures := (start_meets htarget fields).of_run hrun
  constructor
  · intro event w' p' hstep
    exact hensures.allowed hstep
  · rintro ⟨_, s⟩ rfl
    obtain ⟨previous, h⟩ := hensures _ _ rfl
    exact h.notPast

/-! ## A source that contradicts itself

A scheduler runs the worker with a database that commits every transaction and a source that answers
the ledgers of a list, one after another. -/

/-- A transaction is committed at once, or it fails. -/
def commit {α : Type} (transaction : PersistClock → ProfileRows → Except Thrown (α × ProfileRows))
    (s : FencingState) : Except Thrown α × FencingState :=
  match transaction ⟨s.clock, .at s.clock, le_rfl⟩ s.rows with
  | .ok (a, rows) => (.ok a, ⟨rows, s.clock⟩)
  | .error error => (.error error, s)

theorem commit_transacts {α : Type}
    (transaction : PersistClock → ProfileRows → Except Thrown (α × ProfileRows))
    (s : FencingState) :
    Transacts transaction s (commit transaction s).1 (commit transaction s).2 := by
  rw [commit]
  split
  case h_1 a rows heq =>
    exact Or.inl ⟨⟨s.clock, .at s.clock, le_rfl⟩, a, rows, le_rfl, heq, rfl, Or.inl rfl⟩
  case h_2 error heq => exact Or.inr ⟨error, rfl, rfl, le_rfl⟩

/-- How a call is answered, when the source answers `ledgers` one after another. -/
def answerCall (P : Platform) (J : JsonbReader) (tips : LedgerSourceTips)
    (preflight : LedgerSourcePreflight) (ledgers : List ValidatedLedger) (s : FencingState) :
    (c : WorkerCall) → c.Answer × FencingState
  | .initializeProfile profile => commit (fun _ rows => do
      let rows ← Indexer.initializeProfile .exclusiveProfile false profile rows
      pure ((), rows)) s
  | .acquireLease input => commit (fun clock rows => acquireIndexerLease input clock.status rows) s
  | .renewLease token leaseDurationMs => commit (fun clock rows =>
      renewIndexerLease token leaseDurationMs clock.status rows) s
  | .updateIndexerStatus token status => commit (fun clock rows =>
      Db.updateIndexerStatus token status clock.status rows) s
  | .releaseLease token => commit (fun clock rows => releaseIndexerLease token clock.status rows) s
  | .haltIndexer token status errorCode => commit (fun clock rows =>
      Db.haltIndexer token status errorCode clock.status rows) s
  | .getLastCheckpoint => (.ok (Indexer.getLastCheckpoint s.rows.toProjectionRows), s)
  | .getSchemaCatalog => (.ok (Indexer.getSchemaCatalog J s.rows.toProjectionRows), s)
  | .persistLedger profile projection token status => commit (fun clock rows =>
      Indexer.persistLedger P profile projection token status clock rows) s
  | .preflight _ => (.ok preflight, s)
  | .getValidatedLedgerTips => (.ok tips, s)
  | .getLedger _ => (ledgers.head?.elim (.error (.error [])) .ok, s)
  | .aborted => (.ok false, s)
  | .connect | .disconnect | .wait _ | .ledgerProcessed .. | .caughtUp _ | .failed _ | .completed =>
      (.ok (), s)

theorem answerCall_does (P : Platform) (J : JsonbReader) (tips : LedgerSourceTips)
    (preflight : LedgerSourcePreflight) (ledgers : List ValidatedLedger) (s : FencingState)
    (c : WorkerCall) : c.Does P J s (answerCall P J tips preflight ledgers s c).1
      (answerCall P J tips preflight ledgers s c).2 := by
  cases c with
  | initializeProfile profile => exact ⟨.exclusiveProfile, false, commit_transacts _ s⟩
  | acquireLease input => exact commit_transacts _ s
  | renewLease token leaseDurationMs => exact commit_transacts _ s
  | updateIndexerStatus token status => exact commit_transacts _ s
  | releaseLease token => exact commit_transacts _ s
  | haltIndexer token status errorCode => exact commit_transacts _ s
  | persistLedger profile projection token status => exact commit_transacts _ s
  | getLastCheckpoint => exact ⟨rfl, Or.inl rfl⟩
  | getSchemaCatalog => exact ⟨rfl, Or.inl rfl⟩
  | aborted => exact ⟨rfl, false, rfl⟩
  | wait milliseconds => exact ⟨rfl, rfl⟩
  | completed => exact ⟨rfl, rfl⟩
  | _ => rfl

/-- What a call leaves of the ledgers the source will answer. -/
def remaining (ledgers : List ValidatedLedger) : WorkerCall → List ValidatedLedger
  | .getLedger _ => ledgers.tail
  | _ => ledgers

/-- So many calls of a program. -/
def drive (P : Platform) (J : JsonbReader) (tips : LedgerSourceTips)
    (preflight : LedgerSourcePreflight) {α : Type} :
    ℕ → List ValidatedLedger →
      WorkerWorld × Program WorkerCall WorkerCall.Answer (Thrown × WorkerState) α →
      WorkerWorld × Program WorkerCall WorkerCall.Answer (Thrown × WorkerState) α
  | count + 1, ledgers, (w, .call c next) =>
      let answered := answerCall P J tips preflight ledgers w.state c
      drive P J tips preflight count (remaining ledgers c)
        (⟨answered.2, w.history ++ [⟨c, answered.1⟩]⟩, next answered.1)
  | _, _, s => s

theorem drive_run (P : Platform) (J : JsonbReader) (tips : LedgerSourceTips)
    (preflight : LedgerSourcePreflight) {α : Type} :
    ∀ (count : ℕ) (ledgers : List ValidatedLedger)
      (s : WorkerWorld × Program WorkerCall WorkerCall.Answer (Thrown × WorkerState) α),
      ∃ events, Run (StepOn (WorkerCall.Performs P J)) s events
        (drive P J tips preflight count ledgers s) := by
  intro count
  induction count with
  | zero => exact fun _ s => ⟨[], .nil s⟩
  | succ count ih =>
      rintro ledgers ⟨w, result | _ | ⟨c, next⟩⟩
      · exact ⟨[], .nil _⟩
      · exact ⟨[], .nil _⟩
      · obtain ⟨events, hrun⟩ := ih (remaining ledgers c) _
        exact ⟨_, (Run.single (.call ⟨answerCall_does P J tips preflight ledgers w.state c,
          rfl⟩)).append hrun⟩

/-- A worker of `testnetProfile` whose target has the index of the activation ledger. -/
def activationWorker (ledgerHash : JsString) : IndexerWorker where
  profile := testnetProfile
  pollIntervalMs := 4000
  leaseDurationMs := 30000
  batchSize := 20
  writerId := js "writer"
  replayTarget := some ⟨7, ledgerHash⟩
  activation_le := by
    rintro _ ⟨⟩
    exact le_rfl

def idleState : WorkerState :=
  ⟨none, none, none, false, false⟩

/-- A replay of the activation ledger, up to where it is complete. -/
def activationReplay (ledgerHash : JsString) (ledgers : List ValidatedLedger) :=
  drive .sample .exact ⟨7, 7, 7⟩ ⟨1, [⟨7, 7⟩], sampleLedger, ⟨7, 7, 7⟩⟩ 22 ledgers
    (⟨⟨.empty, 0⟩, []⟩, start .sample (activationWorker ledgerHash) 1 idleState)

/-- The newest checkpoint where a replay is complete. -/
def completedAt {α : Type} :
    WorkerWorld × Program WorkerCall WorkerCall.Answer (Thrown × WorkerState) α → Option Checkpoint
  | (w, .call .completed _) => newestCheckpoint w
  | _ => none

theorem exists_completed {α : Type} {checkpoint : Checkpoint}
    {s : WorkerWorld × Program WorkerCall WorkerCall.Answer (Thrown × WorkerState) α}
    (h : completedAt s = some checkpoint) :
    ∃ w next, s = (w, .call .completed next) ∧ newestCheckpoint w = some checkpoint := by
  unfold completedAt at h
  split at h
  case h_1 w next => exact ⟨w, next, rfl, h⟩
  case h_2 => cases h

/-- A replay of the activation ledger that its source confirms is complete with its hash. -/
theorem replay_stops_at_target_sample :
    ∃ w next, activationReplay (List.replicate 64 0x61) [emptyLedger, emptyLedger]
        = (w, .call .completed next) ∧
      AtTarget ⟨7, List.replicate 64 0x61⟩ w := by
  have hcompleted : completedAt (activationReplay (List.replicate 64 0x61)
      [emptyLedger, emptyLedger]) = some (checkpointFromLedger emptyLedger) := by decide +kernel
  obtain ⟨w, next, heq, -⟩ := exists_completed hcompleted
  obtain ⟨events, hrun⟩ := drive_run .sample .exact ⟨7, 7, 7⟩
    ⟨1, [⟨7, 7⟩], sampleLedger, ⟨7, 7, 7⟩⟩ 22 [emptyLedger, emptyLedger]
    (⟨⟨.empty, 0⟩, []⟩, start .sample (activationWorker (List.replicate 64 0x61)) 1 idleState)
  rw [show drive .sample .exact _ _ 22 _ _ = _ from heq] at hrun
  have hguard := (replay_stops_at_target .sample .exact
    (activationWorker (List.replicate 64 0x61)) ⟨7, List.replicate 64 0x61⟩ rfl 1 idleState
    ⟨.empty, 0⟩ hrun).1 ⟨.completed, .ok ()⟩ ⟨w.state, w.history ++ [⟨.completed, .ok ()⟩]⟩ _
    (.call ⟨⟨rfl, rfl⟩, rfl⟩)
  exact ⟨w, next, heq, hguard⟩

/-- A source answers the target at the start, and then the activation ledger of the profile, which
has another hash: the replay is complete with a projection of another ledger than its target. -/
theorem replay_completes_elsewhere :
    ∃ events w next,
      Run (StepOn (WorkerCall.Performs .sample .exact))
        (⟨⟨.empty, 0⟩, []⟩, start .sample (activationWorker (List.replicate 64 0x62)) 1 idleState)
        events (w, .call .completed next) ∧
      newestCheckpoint w = some (checkpointFromLedger emptyLedger) ∧
      (checkpointFromLedger emptyLedger).ledgerHash ≠ List.replicate 64 0x62 := by
  have hcompleted : completedAt (activationReplay (List.replicate 64 0x62)
      [{ emptyLedger with ledgerHash := List.replicate 64 0x62 }, emptyLedger])
        = some (checkpointFromLedger emptyLedger) := by
    decide +kernel
  obtain ⟨w, next, heq, hnewest⟩ := exists_completed hcompleted
  obtain ⟨events, hrun⟩ := drive_run .sample .exact ⟨7, 7, 7⟩
    ⟨1, [⟨7, 7⟩], sampleLedger, ⟨7, 7, 7⟩⟩ 22
    [{ emptyLedger with ledgerHash := List.replicate 64 0x62 }, emptyLedger]
    (⟨⟨.empty, 0⟩, []⟩, start .sample (activationWorker (List.replicate 64 0x62)) 1 idleState)
  rw [show drive .sample .exact _ _ 22 _ _ = _ from heq] at hrun
  exact ⟨events, w, next, hrun, hnewest, by decide⟩

end Indexer
end Xcs
