import Xcs.Db.Tables
import Xcs.Js.Date

/-!
# Authoritative ledger evidence

Every authoritative answer is guarded by `assertAuthoritativeLedgerEvidence`, and the metrics call a
profile ready by `isProfileReady`.  `readiness_agrees`: on rows that meet the constraints of the
tables the two agree, at every time and for every maximum age.

A number of a `bigint` column is an integer.  `rippleTimeToUnixTime` is a function of a library; it
is a parameter, and `none` stands for an error it throws.
-/

namespace Xcs
namespace Web

open Js Db

/-! ## Freshness -/

/-- A `Date` is its time value; `none` is the time value `NaN`. -/
abbrev DateValue := Option ℤ

/-- `a <= b` for time values: nothing is `<=` to `NaN`. -/
def DateValue.le : DateValue → DateValue → Bool
  | some a, some b => decide (a ≤ b)
  | _, _ => false

/-- `MAX_LEDGER_CLOCK_SKEW_SECONDS` -/
def maxLedgerClockSkewSeconds : ℤ := 30

/-- `LedgerCheckpointFreshness` -/
inductive LedgerCheckpointFreshness where
  | fresh
  | missing
  | stale
  deriving DecidableEq

/-- `IndexerUnavailableCode` -/
inductive IndexerUnavailableCode where
  | notInitialized
  | stale
  | statusUnavailable
  | notReady
  | halted
  | leaseExpired
  | evidenceInvalid
  deriving DecidableEq

/-- `IndexerUnavailableError` -/
structure IndexerUnavailable where
  code : IndexerUnavailableCode
  message : JsString
  deriving DecidableEq

section Freshness

variable (rippleTimeToUnixTime : ℤ → Option ℤ)

/-- `evaluateLedgerCheckpointFreshness` -/
def evaluateLedgerCheckpointFreshness (closeTime : Option ℤ) (now : DateValue)
    (maxAgeSeconds : JsNumber) : LedgerCheckpointFreshness :=
  match closeTime with
  | none => .missing
  | some closeTime =>
      match maxAgeSeconds.toNat?, now with
      | some maxAge, some now =>
          let nowUnixSeconds := now / 1000
          if (maxSafeInteger : ℤ) < |nowUnixSeconds| then .stale
          else
            match rippleTimeToUnixTime closeTime with
            | none => .stale
            | some unixTime =>
                let ageSeconds := nowUnixSeconds - unixTime / 1000
                if (maxAge : ℤ) < ageSeconds ∨ ageSeconds < -maxLedgerClockSkewSeconds then .stale
                else .fresh
      | _, _ => .stale

/-- `assertFreshLedgerCheckpoint` -/
def assertFreshLedgerCheckpoint (closeTime : Option ℤ) (now : DateValue)
    (maxAgeSeconds : JsNumber) : Except IndexerUnavailable Unit :=
  match evaluateLedgerCheckpointFreshness rippleTimeToUnixTime closeTime now maxAgeSeconds with
  | .missing => .error ⟨.notInitialized,
      js "The indexer has not produced a ledger checkpoint for this network."⟩
  | .stale => .error ⟨.stale,
      js "The indexed ledger checkpoint is stale or has an invalid timestamp."⟩
  | .fresh => .ok ()

end Freshness

/-! ## The guard -/

/-- The columns of a row of `indexer_status` that the interface reads. -/
structure IndexerStatus where
  profileId : JsString
  state : IndexerStatusState
  primarySourceTip : Option ℤ
  secondarySourceTip : Option ℤ
  lastAgreedLedgerIndex : Option ℤ
  lastAgreedLedgerHash : Option JsString
  writerId : Option JsString
  leaseExpiresAt : Option DateValue

/-- The columns of a row of `ledger_checkpoints` that the interface reads. -/
structure LedgerCheckpoint where
  profileId : JsString
  ledgerIndex : ℤ
  ledgerHash : JsString
  closeTime : ℤ
  transactionRoot : Option JsString

/-- The message of `INDEXER_EVIDENCE_INVALID`. -/
def evidenceInvalid : IndexerUnavailable :=
  ⟨.evidenceInvalid, js "The indexer integrity evidence is incomplete or inconsistent."⟩

/-- Whether the writer of a profile holds its lease. -/
def holdsLease (status : IndexerStatus) (now : DateValue) : Bool :=
  now.isSome && status.writerId.isSome
    && match status.leaseExpiresAt with
      | none => false
      | some leaseExpiresAt => leaseExpiresAt.isSome && !leaseExpiresAt.le now

/-- Whether the tips of a row agree with its ledger. -/
def tipsAgree (status : IndexerStatus) : Bool :=
  match status.primarySourceTip, status.secondarySourceTip, status.lastAgreedLedgerIndex,
      status.lastAgreedLedgerHash with
  | some primary, some secondary, some index, some _ =>
      isUint32Column primary && isUint32Column secondary && isUint32Column index
        && index == min primary secondary
  | _, _, _, _ => false

/-- `assertIndexerReady` -/
def assertIndexerReady (status : Option IndexerStatus) (now : DateValue) :
    Except IndexerUnavailable IndexerStatus :=
  match status with
  | none => .error ⟨.statusUnavailable,
      js "The indexer has not published an integrity status for this network."⟩
  | some status =>
      if status.state = .halted then
        .error ⟨.halted,
          js "The indexer halted after detecting an integrity or continuity failure."⟩
      else if status.state ≠ .ready then
        .error ⟨.notReady, js "The indexer has not reached an agreed ledger state."⟩
      else if holdsLease status now = false then
        .error ⟨.leaseExpired,
          js "The indexer does not hold a live writer lease for this network."⟩
      else if tipsAgree status = false then .error evidenceInvalid
      else .ok status

/-- The input of `assertAuthoritativeLedgerEvidence`. -/
structure LedgerEvidence where
  expectedProfileId : JsString
  status : Option IndexerStatus
  checkpoint : Option LedgerCheckpoint
  now : DateValue
  maxLedgerAgeSeconds : JsNumber
  minimumLedgerIndex : Option ℤ
  projectionLedgerIndexes : Option (List ℤ)

/-- `assertAuthoritativeLedgerEvidence`; the rows are what it asserts to be there. -/
def assertAuthoritativeLedgerEvidence (rippleTimeToUnixTime : ℤ → Option ℤ)
    (input : LedgerEvidence) : Except IndexerUnavailable (IndexerStatus × LedgerCheckpoint) := do
  let status ← assertIndexerReady input.status input.now
  match input.checkpoint with
  | none => .error ⟨.notInitialized,
      js "The indexer has not produced a ledger checkpoint for this network."⟩
  | some checkpoint =>
      if status.profileId ≠ input.expectedProfileId
          ∨ checkpoint.profileId ≠ input.expectedProfileId
          ∨ status.lastAgreedLedgerIndex ≠ some checkpoint.ledgerIndex
          ∨ status.lastAgreedLedgerHash ≠ some checkpoint.ledgerHash
          ∨ checkpoint.transactionRoot = none ∨ isUint32Column checkpoint.ledgerIndex = false
          ∨ isUint32Column checkpoint.closeTime = false then .error evidenceInvalid
      else
        let minimum := input.minimumLedgerIndex.getD 0
        let outside (ledgerIndex : ℤ) : Bool :=
          decide (ledgerIndex < minimum ∨ checkpoint.ledgerIndex < ledgerIndex)
        if minimum < 0 ∨ checkpoint.ledgerIndex < minimum
            ∨ (input.projectionLedgerIndexes.getD []).any outside then .error evidenceInvalid
        else do
          assertFreshLedgerCheckpoint rippleTimeToUnixTime (some checkpoint.closeTime) input.now
            input.maxLedgerAgeSeconds
          pure (status, checkpoint)

/-! ## The metrics -/

/-- The `status` of a snapshot. -/
structure StatusSnapshot where
  state : IndexerStatusState
  primarySourceTip : Option ℤ
  secondarySourceTip : Option ℤ
  lastAgreedLedgerIndex : Option ℤ
  lastAgreedLedgerHash : Option JsString
  writerPresent : Bool
  leaseExpiresAt : Option DateValue

/-- The `checkpoint` of a snapshot. -/
structure CheckpointSnapshot where
  ledgerIndex : ℤ
  ledgerHash : JsString
  closeTime : ℤ
  transactionRootPresent : Bool

/-- `OperationalMetricsProfileSnapshot`, as far as readiness goes. -/
structure ProfileSnapshot where
  status : Option StatusSnapshot
  checkpoint : Option CheckpointSnapshot
  activationLedgerIndex : ℤ

/-- `isProfileReady` -/
def isProfileReady (rippleTimeToUnixTime : ℤ → Option ℤ) (profile : ProfileSnapshot)
    (observedAt : DateValue) (maxLedgerAgeSeconds : JsNumber) : Bool :=
  match profile.status, profile.checkpoint with
  | some status, some checkpoint =>
      if status.state ≠ .ready ∨ status.writerPresent = false then false
      else
        match status.leaseExpiresAt, status.primarySourceTip, status.secondarySourceTip,
            status.lastAgreedLedgerIndex, status.lastAgreedLedgerHash with
        | some leaseExpiresAt, some primary, some secondary, some index, some hash =>
            if leaseExpiresAt.le observedAt = true ∨ index ≠ min primary secondary
                ∨ index ≠ checkpoint.ledgerIndex ∨ hash ≠ checkpoint.ledgerHash
                ∨ checkpoint.ledgerIndex < profile.activationLedgerIndex
                ∨ checkpoint.transactionRootPresent = false then false
            else evaluateLedgerCheckpointFreshness rippleTimeToUnixTime (some checkpoint.closeTime)
              observedAt maxLedgerAgeSeconds == .fresh
        | _, _, _, _, _ => false
  | _, _ => false

/-! ## The rows they read -/

/-- The driver reads a timestamp to the millisecond. -/
def dateOfInstant (instant : Instant) : DateValue := some ((instant : ℤ) / 1000)

/-- The row of a profile as the interface reads it. -/
def readStatus (profileId : JsString) (row : IndexerStatusRow) : IndexerStatus where
  profileId := profileId
  state := row.state
  primarySourceTip := row.primarySourceTip.map Nat.cast
  secondarySourceTip := row.secondarySourceTip.map Nat.cast
  lastAgreedLedgerIndex := row.lastAgreedLedgerIndex.map Nat.cast
  lastAgreedLedgerHash := row.lastAgreedLedgerHash
  writerId := row.writerId
  leaseExpiresAt := row.leaseExpiresAt.map dateOfInstant

/-- A checkpoint of a profile as the interface reads it. -/
def readCheckpoint (profileId : JsString) (row : LedgerCheckpointRow) : LedgerCheckpoint :=
  ⟨profileId, row.ledgerIndex, row.ledgerHash, row.closeTime, some row.transactionRoot⟩

/-- The same rows as the query of the metrics reads them. -/
def profileSnapshot (network : NetworkProfileRow) (status : Option IndexerStatusRow)
    (checkpoint : Option LedgerCheckpointRow) : ProfileSnapshot where
  status := status.map fun row =>
    { state := row.state
      primarySourceTip := row.primarySourceTip.map Nat.cast
      secondarySourceTip := row.secondarySourceTip.map Nat.cast
      lastAgreedLedgerIndex := row.lastAgreedLedgerIndex.map Nat.cast
      lastAgreedLedgerHash := row.lastAgreedLedgerHash
      writerPresent := row.writerId.isSome
      leaseExpiresAt := row.leaseExpiresAt.map dateOfInstant }
  checkpoint := checkpoint.map fun row => ⟨row.ledgerIndex, row.ledgerHash, row.closeTime, true⟩
  activationLedgerIndex := network.activationLedgerIndex

/-! ## Agreement -/

theorem assertFreshLedgerCheckpoint_eq_ok {rippleTimeToUnixTime : ℤ → Option ℤ}
    {closeTime : Option ℤ}
    {now : DateValue} {maxAgeSeconds : JsNumber} {u : Unit} :
    assertFreshLedgerCheckpoint rippleTimeToUnixTime closeTime now maxAgeSeconds = .ok u ↔
      evaluateLedgerCheckpointFreshness rippleTimeToUnixTime closeTime now maxAgeSeconds
        = .fresh := by
  unfold assertFreshLedgerCheckpoint
  split
  · rename_i h
    simp [h]
  · rename_i h
    simp [h]
  · rename_i h
    simp [h]

/-- A checkpoint is fresh only at a time. -/
theorem isSome_of_fresh {rippleTimeToUnixTime : ℤ → Option ℤ} {closeTime : Option ℤ}
    {now : DateValue} {maxAgeSeconds : JsNumber}
    (h : evaluateLedgerCheckpointFreshness rippleTimeToUnixTime closeTime now maxAgeSeconds
      = .fresh) : now.isSome = true := by
  unfold evaluateLedgerCheckpointFreshness at h
  split at h
  · cases h
  · split at h
    · rfl
    · cases h

theorem assertIndexerReady_eq_ok {status : Option IndexerStatus} {now : DateValue}
    {row : IndexerStatus} :
    assertIndexerReady status now = .ok row ↔ status = some row ∧ row.state = .ready ∧
      holdsLease row now = true ∧ tipsAgree row = true := by
  cases status with
  | none => simp [assertIndexerReady]
  | some status =>
      unfold assertIndexerReady
      dsimp only
      split_ifs with hhalted hready hlease htips
      · refine ⟨fun h => (nomatch h), ?_⟩
        rintro ⟨hrow, hready, -⟩
        rw [← Option.some.inj hrow, hhalted] at hready
        cases hready
      · refine ⟨fun h => (nomatch h), ?_⟩
        rintro ⟨hrow, hready', -⟩
        rw [← Option.some.inj hrow] at hready'
        exact absurd hready' hready
      · refine ⟨fun h => (nomatch h), ?_⟩
        rintro ⟨hrow, -, hlease', -⟩
        rw [← Option.some.inj hrow, hlease] at hlease'
        cases hlease'
      · refine ⟨fun h => (nomatch h), ?_⟩
        rintro ⟨hrow, -, -, htips'⟩
        rw [← Option.some.inj hrow, htips] at htips'
        cases htips'
      · constructor
        · intro h
          obtain rfl := Except.ok.inj h
          exact ⟨rfl, not_not.mp hready, by simpa using hlease, by simpa using htips⟩
        · rintro ⟨hrow, -⟩
          rw [Option.some.inj hrow]

/-- **What the guard asks of the rows of a profile.** -/
theorem assertAuthoritativeLedgerEvidence_isOk_iff {rippleTimeToUnixTime : ℤ → Option ℤ}
    {input : LedgerEvidence} :
    (∃ rows, assertAuthoritativeLedgerEvidence rippleTimeToUnixTime input = .ok rows) ↔
      ∃ status checkpoint, input.status = some status ∧ input.checkpoint = some checkpoint ∧
        (status.state = .ready ∧ holdsLease status input.now = true ∧ tipsAgree status = true) ∧
        (status.profileId = input.expectedProfileId ∧
          checkpoint.profileId = input.expectedProfileId ∧
          status.lastAgreedLedgerIndex = some checkpoint.ledgerIndex ∧
          status.lastAgreedLedgerHash = some checkpoint.ledgerHash ∧
          checkpoint.transactionRoot ≠ none ∧ isUint32Column checkpoint.ledgerIndex = true ∧
          isUint32Column checkpoint.closeTime = true) ∧
        (0 ≤ input.minimumLedgerIndex.getD 0 ∧
          input.minimumLedgerIndex.getD 0 ≤ checkpoint.ledgerIndex ∧
          ∀ index ∈ input.projectionLedgerIndexes.getD [],
            input.minimumLedgerIndex.getD 0 ≤ index ∧ index ≤ checkpoint.ledgerIndex) ∧
        evaluateLedgerCheckpointFreshness rippleTimeToUnixTime (some checkpoint.closeTime) input.now
          input.maxLedgerAgeSeconds = .fresh := by
  constructor
  · rintro ⟨rows, h⟩
    simp only [assertAuthoritativeLedgerEvidence, bind_eq_ok, assertIndexerReady_eq_ok] at h
    obtain ⟨status, ⟨hstatus, hready⟩, h⟩ := h
    split at h
    · cases h
    · rename_i checkpoint hcheckpoint
      split_ifs at h with hrows hindexes
      simp only [bind_eq_ok, assertFreshLedgerCheckpoint_eq_ok] at h
      obtain ⟨-, hfresh, -⟩ := h
      push Not at hrows hindexes
      simp only [Bool.not_eq_false, Bool.not_eq_true, List.any_eq_false, decide_eq_true_eq, not_or,
        not_lt] at hrows hindexes
      exact ⟨status, checkpoint, hstatus, hcheckpoint, hready, hrows, hindexes, hfresh⟩
  · rintro ⟨status, checkpoint, hstatus, hcheckpoint, hready, hrows, hindexes, hfresh⟩
    refine ⟨(status, checkpoint), ?_⟩
    simp only [assertAuthoritativeLedgerEvidence, bind_eq_ok, assertIndexerReady_eq_ok]
    refine ⟨status, ⟨hstatus, hready⟩, ?_⟩
    rw [hcheckpoint]
    dsimp only
    rw [if_neg, if_neg]
    · simp only [bind_eq_ok, assertFreshLedgerCheckpoint_eq_ok]
      exact ⟨(), hfresh, rfl⟩
    · push Not
      simp only [Bool.not_eq_true, List.any_eq_false, decide_eq_true_eq, not_or, not_lt]
      exact hindexes
    · push Not
      simp only [Bool.not_eq_false]
      exact hrows

/-- The columns of a row in the state `ready`. -/
theorem ready_columns {row : IndexerStatusRow} (h : ∀ c ∈ row.checks, c.2 = true)
    (hready : row.state = .ready) :
    ∃ primary secondary hash writer lease, row.primarySourceTip = some primary ∧
      row.secondarySourceTip = some secondary ∧
      row.lastAgreedLedgerIndex = some (min primary secondary) ∧
      row.lastAgreedLedgerHash = some hash ∧ row.writerId = some writer ∧
      row.leaseExpiresAt = some lease ∧ isUint32Column primary = true ∧
      isUint32Column secondary = true := by
  simp only [IndexerStatusRow.checks, List.forall_mem_cons, hready] at h
  obtain ⟨-, -, -, -, -, hprimary, hshape, hsecondary, -⟩ := h
  have hshape' : readyShape row = true := by simpa using hshape
  unfold readyShape at hshape'
  split at hshape'
  · rename_i primary secondary index hash hp hs hi hh
    simp only [Bool.and_eq_true, beq_iff_eq] at hshape'
    obtain ⟨⟨hwriter, hlease⟩, rfl⟩ := hshape'
    obtain ⟨writer, hwriter⟩ := Option.isSome_iff_exists.mp hwriter
    obtain ⟨lease, hlease⟩ := Option.isSome_iff_exists.mp hlease
    rw [hp] at hprimary
    rw [hs] at hsecondary
    exact ⟨primary, secondary, hash, writer, lease, hp, hs, hi, hh, hwriter, hlease, hprimary,
      hsecondary⟩
  · cases hshape'

/-- **When the metrics call a profile ready.** -/
theorem isProfileReady_iff {rippleTimeToUnixTime : ℤ → Option ℤ} {profile : ProfileSnapshot}
    {observedAt : DateValue} {maxAge : JsNumber} :
    isProfileReady rippleTimeToUnixTime profile observedAt maxAge = true ↔
      ∃ status checkpoint lease primary secondary, profile.status = some status ∧
        profile.checkpoint = some checkpoint ∧
        (status.state = .ready ∧ status.writerPresent = true) ∧
        (status.leaseExpiresAt = some lease ∧ status.primarySourceTip = some primary ∧
          status.secondarySourceTip = some secondary ∧
          status.lastAgreedLedgerIndex = some (min primary secondary) ∧
          status.lastAgreedLedgerHash = some checkpoint.ledgerHash) ∧
        (lease.le observedAt = false ∧ min primary secondary = checkpoint.ledgerIndex ∧
          profile.activationLedgerIndex ≤ checkpoint.ledgerIndex ∧
          checkpoint.transactionRootPresent = true) ∧
        evaluateLedgerCheckpointFreshness rippleTimeToUnixTime (some checkpoint.closeTime)
          observedAt
          maxAge = .fresh := by
  constructor
  · intro h
    unfold isProfileReady at h
    split at h
    · rename_i status checkpoint hstatus hcheckpoint
      split_ifs at h with hwriter
      push Not at hwriter
      split at h
      · rename_i lease primary secondary index hash hlease hprimary hsecondary hindex hhash
        split_ifs at h with hrows
        push Not at hrows
        obtain ⟨hle, rfl, hmin, rfl, hactivation, hroot⟩ := hrows
        refine ⟨status, checkpoint, lease, primary, secondary, hstatus, hcheckpoint,
          ⟨hwriter.1, eq_true_of_ne_false hwriter.2⟩,
          ⟨hlease, hprimary, hsecondary, hindex, hhash⟩,
          ⟨eq_false_of_ne_true hle, hmin, hactivation, eq_true_of_ne_false hroot⟩, ?_⟩
        exact eq_of_beq h
      · cases h
    · cases h
  · rintro ⟨status, checkpoint, lease, primary, secondary, hstatus, hcheckpoint, hwriter,
      ⟨hlease, hprimary, hsecondary, hindex, hhash⟩, ⟨hle, hmin, hactivation, hroot⟩, hfresh⟩
    unfold isProfileReady
    rw [hstatus, hcheckpoint]
    dsimp only
    rw [if_neg, hlease, hprimary, hsecondary, hindex, hhash]
    · dsimp only
      rw [if_neg, hfresh]
      · rfl
      · push Not
        simp [hle, hmin, hroot, hactivation]
    · simp [hwriter]

/-- **Readiness agrees with the guard.**  On rows that meet the constraints of the tables, the
metrics call a profile ready exactly when an authoritative answer is given, with the activation of
the profile as the least ledger and without further projections. -/
theorem readiness_agrees (rippleTimeToUnixTime : ℤ → Option ℤ) (network : NetworkProfileRow)
    (status : Option IndexerStatusRow) (checkpoint : Option LedgerCheckpointRow) (now : DateValue)
    (maxAge : JsNumber) (projection : Option (List ℤ))
    (hprojection : ∀ indexes ∈ projection, indexes = [])
    (hstatus : ∀ row ∈ status, ∀ c ∈ row.checks, c.2 = true)
    (hcheckpoint : ∀ row ∈ checkpoint, ∀ c ∈ row.checks, c.2 = true) :
    isProfileReady rippleTimeToUnixTime (profileSnapshot network status checkpoint) now maxAge
      = true ↔
      ∃ rows, assertAuthoritativeLedgerEvidence rippleTimeToUnixTime
        { expectedProfileId := network.profileId
          status := status.map (readStatus network.profileId)
          checkpoint := checkpoint.map (readCheckpoint network.profileId)
          now := now
          maxLedgerAgeSeconds := maxAge
          minimumLedgerIndex := some network.activationLedgerIndex
          projectionLedgerIndexes := projection } = .ok rows := by
  rw [isProfileReady_iff, assertAuthoritativeLedgerEvidence_isOk_iff]
  have hnone : projection.getD [] = [] := by
    cases projection with
    | none => rfl
    | some indexes => exact hprojection indexes rfl
  cases status with
  | none => simp [profileSnapshot]
  | some row =>
      cases checkpoint with
      | none => simp [profileSnapshot]
      | some ledger =>
          by_cases hready : row.state = .ready
          · obtain ⟨primary, secondary, hash, writer, lease, hprimary, hsecondary, hindex, hhash,
              hwriter, hlease, hprimary32, hsecondary32⟩ := ready_columns (hstatus row rfl) hready
            have hledger := hcheckpoint ledger rfl
            simp only [LedgerCheckpointRow.checks, List.forall_mem_cons] at hledger
            obtain ⟨hclose32, -, hindex32, -⟩ := hledger
            simp only [profileSnapshot, Option.map_some, hready, hprimary, hsecondary, hindex,
              Nat.cast_min, hhash, hwriter, Option.isSome_some, hlease, dateOfInstant,
              Option.some.injEq, exists_and_left, ↓existsAndEq, Nat.cast_le, and_true, true_and,
              exists_eq_left', and_self, readStatus, readCheckpoint, holdsLease, Bool.and_eq_true,
              tipsAgree, ne_eq, Option.getD_some, Nat.cast_nonneg, hnone, List.not_mem_nil,
              IsEmpty.forall_iff, implies_true, reduceCtorEq, not_false_eq_true, hindex32, hclose32,
              Bool.true_and, Bool.not_eq_eq_eq_not, Bool.not_true, hprimary32, hsecondary32,
              Bool.and_self, BEq.rfl, Bool.and_true]
            constructor
            · rintro ⟨rfl, ⟨hle, hmin, hactivation⟩, hfresh⟩
              rw [hmin]
              exact ⟨⟨⟨isSome_of_fresh hfresh, hle⟩, hindex32⟩, ⟨rfl, rfl⟩, hactivation, hfresh⟩
            · rintro ⟨⟨⟨-, hle⟩, -⟩, ⟨hmin, rfl⟩, hactivation, hfresh⟩
              exact ⟨rfl, ⟨hle, hmin, hactivation⟩, hfresh⟩
          · simp [profileSnapshot, readStatus, hready]

/-! ### A profile that is ready -/

def sampleProfileRow : NetworkProfileRow where
  profileId := js "testnet"
  xcsVersion := js "0.1"
  networkId := 1
  requiredAmendment := List.replicate 64 0x61
  registryAddress := js "rHb9CJAWyB4rj91VRWn96DkukG4bwdtyTh"
  registrationAmountDrops := 1
  activationLedgerIndex := 100
  activationLedgerHash := List.replicate 64 0x62

def sampleStatusRow : IndexerStatusRow where
  state := .ready
  primarySourceTip := some 120
  secondarySourceTip := some 121
  lastAgreedLedgerIndex := some 120
  lastAgreedLedgerHash := some (List.replicate 64 0x63)
  errorCode := none
  writerId := some (js "writer-1")
  writerEpoch := 1
  leaseExpiresAt := some 946684860000000
  updatedAt := 946684800000000

def sampleCheckpointRow : LedgerCheckpointRow where
  ledgerIndex := 120
  ledgerHash := List.replicate 64 0x63
  parentHash := List.replicate 64 0x64
  closeTime := 0
  transactionCount := 0
  transactionRoot := List.replicate 64 0x65

/-- An answer is given, half a minute after the ledger of the sample was closed. -/
theorem readiness_agrees_sample :
    ∃ rows, assertAuthoritativeLedgerEvidence (fun time => some ((time + 946684800) * 1000))
      { expectedProfileId := js "testnet"
        status := some (readStatus (js "testnet") sampleStatusRow)
        checkpoint := some (readCheckpoint (js "testnet") sampleCheckpointRow)
        now := some 946684830000
        maxLedgerAgeSeconds := .ofNat 120
        minimumLedgerIndex := some (100 : ℕ)
        projectionLedgerIndexes := none } = .ok rows := by
  refine (readiness_agrees (fun time => some ((time + 946684800) * 1000)) sampleProfileRow
    (some sampleStatusRow) (some sampleCheckpointRow) (some 946684830000) (.ofNat 120) none ?_ ?_
    ?_).mp ?_
  · exact fun indexes h => nomatch h
  · intro row hrow
    obtain rfl := Option.some.inj hrow
    decide +kernel
  · intro row hrow
    obtain rfl := Option.some.inj hrow
    decide +kernel
  · decide +kernel

end Web
end Xcs
