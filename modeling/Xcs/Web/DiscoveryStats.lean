import Xcs.Core.Lifecycle
import Xcs.Run.Aggregates
import Xcs.Web.Presenters

/-!
# Discovery statistics

The figures of a network are counted by the database: `getDiscoveryStats` aggregates the tables
`schemas` and `credential_generations`, with one `CASE` for each state of a credential, and
`publicDiscoveryStats` refuses figures that contradict each other before they are shown.  The
states are those of the lifecycle function of the protocol package, written a second time in SQL.

* `pendingCase_eq_true` and its three siblings: each `CASE` is true of the rows in its state.
* `invalidEvidenceCase_ne_true`: the `CASE` of broken evidence is true of no row that the table
  admits.
* `discoveryStats_agree`: the counts are the histogram of the lifecycle function over the rows, and
  the figures are shown.

A number of a `bigint` column is an integer; `columnNumber` is the number the lifecycle function is
given for it.
-/

namespace Xcs
namespace Web

open Js Core Db Sql

/-! ## Tables -/

/-- More rows than fit in a table of PostgreSQL: it has less than `2 ^ 32` pages, and a page has
room for 291 rows at most. -/
def tableRowLimit : ℕ := 2 ^ 32 * 291

/-- What a statement sees of a table: rows that each met the `CHECK` constraints. -/
structure TableContents (Row : Type) (checks : Row → List (JsString × Bool)) where
  rows : List Row
  checked : ∀ row ∈ rows, ∀ c ∈ checks row, c.2 = true
  fits : rows.length < tableRowLimit

/-- `WHERE profile_id = …` -/
def TableContents.ofProfile {Row : Type} {checks : Row → List (JsString × Bool)}
    (table : TableContents Row checks) (profileOf : Row → JsString) (profileId : JsString) :
    TableContents Row checks where
  rows := table.rows.filter fun row => profileOf row == profileId
  checked := fun row hrow => table.checked row (List.mem_of_mem_filter hrow)
  fits := Nat.lt_of_le_of_lt (List.length_filter_le ..) table.fits

theorem isUint32Column_iff {n : ℤ} : isUint32Column n = true ↔ 0 ≤ n ∧ n ≤ 4294967295 := by
  simp [isUint32Column]

theorem nullOr_eq_true {α : Type} {p : α → Bool} {value : Option α} :
    nullOr p value = true ↔ ∀ a, value = some a → p a = true := by
  cases value <;> simp [nullOr]

/-- What the constraints of `credential_generations` say of the columns that are aggregated. -/
structure GenerationEvidence (row : CredentialGenerationRow) : Prop where
  expiration : ∀ n, row.expiration = some n → 0 ≤ n ∧ n ≤ 4294967295
  created : 0 ≤ row.createdLedgerIndex ∧ row.createdLedgerIndex ≤ 4294967295
  transaction : 0 ≤ row.createdTransactionIndex
  last : 0 ≤ row.lastLedgerIndex ∧ row.lastLedgerIndex ≤ 4294967295
  order : row.createdLedgerIndex ≤ row.lastLedgerIndex
  deleted : ∀ n, row.deletedLedgerIndex = some n → n = row.lastLedgerIndex

theorem generationEvidence_of_checks {row : CredentialGenerationRow}
    (h : ∀ c ∈ row.checks, c.2 = true) : GenerationEvidence row := by
  simp only [CredentialGenerationRow.checks, List.forall_mem_cons, isUint32Column_iff,
    nullOr_eq_true, decide_eq_true_eq, Bool.and_eq_true, beq_iff_eq] at h
  obtain ⟨hcreated, htransaction, -, -, -, hexpiration, -, hlast, ⟨horder, hdeleted⟩, -⟩ := h
  exact ⟨hexpiration, hcreated, htransaction, hlast, horder, hdeleted⟩

theorem ledgerIndex_of_checks {row : SchemaRow} (h : ∀ c ∈ row.checks, c.2 = true) :
    0 ≤ row.ledgerIndex ∧ row.ledgerIndex ≤ 4294967295 := by
  simp only [SchemaRow.checks, List.forall_mem_cons] at h
  exact isUint32Column_iff.mp h.1

/-! ## The states, written in SQL -/

section Cases

variable (closeTime : ℤ) (row : CredentialGenerationRow)

/-- `expiration IS NULL OR expiration > closeTime` -/
def notYetExpired : Truth :=
  any [isNull row.expiration, compare (· > ·) row.expiration (some closeTime)]

/-- The `CASE` that counts as `pending`. -/
def pendingCase : Truth :=
  all [isNull row.deletedLedgerIndex, notYetExpired closeTime row,
    compare (· == ·) (some row.accepted) (some false)]

/-- The `CASE` that counts as `active`. -/
def activeCase : Truth :=
  all [isNull row.deletedLedgerIndex, notYetExpired closeTime row,
    compare (· == ·) (some row.accepted) (some true)]

/-- The `CASE` that counts as `expired`. -/
def expiredCase : Truth :=
  all [isNull row.deletedLedgerIndex, isNotNull row.expiration,
    compare (· ≤ ·) row.expiration (some closeTime)]

/-- The `CASE` that counts as `deleted`. -/
def deletedCase : Truth :=
  isNotNull row.deletedLedgerIndex

/-- `value < 0 OR value > 4294967295` -/
def notUint32 (value : Option ℤ) : List Truth :=
  [compare (· < ·) value (some 0), compare (· > ·) value (some 4294967295)]

/-- The `CASE` that counts as `invalidEvidence`. -/
def invalidEvidenceCase : Truth :=
  any ([all [isNotNull row.expiration, any (notUint32 row.expiration)]]
    ++ notUint32 (some row.createdLedgerIndex)
    ++ [compare (· < ·) (some row.createdTransactionIndex) (some 0)]
    ++ notUint32 (some row.lastLedgerIndex)
    ++ [compare (· < ·) (some row.lastLedgerIndex) (some row.createdLedgerIndex),
      all [isNotNull row.deletedLedgerIndex,
        any (notUint32 row.deletedLedgerIndex
          ++ [compare (· < ·) row.deletedLedgerIndex (some row.createdLedgerIndex),
            compare (· != ·) row.deletedLedgerIndex (some row.lastLedgerIndex)])]])

end Cases

/-! ## The states, computed by the lifecycle function -/

/-- The number that is read from a `bigint` column. -/
def columnNumber (n : ℤ) : JsNumber := .ofRat n

/-- The input of the lifecycle function for a row, as the interface writes it. -/
def lifecycleInput (closeTime : ℤ) (row : CredentialGenerationRow) : CredentialLifecycleInput where
  objectExists := row.deletedLedgerIndex.isNone
  accepted := row.accepted
  expiration := row.expiration.map columnNumber
  closeTime := columnNumber closeTime

/-- The state of a row whose times are uint32. -/
def stateOf (closeTime : ℤ) (row : CredentialGenerationRow) : CredentialLifecycleState :=
  lifecycleState row.deletedLedgerIndex.isNone row.accepted (row.expiration.map Int.toNat)
    closeTime.toNat

theorem requireRippleTime_columnNumber {n : ℤ} (h : 0 ≤ n ∧ n ≤ 4294967295) :
    requireRippleTime (columnNumber n) = .ok n.toNat := by
  obtain ⟨time, rfl⟩ := Int.eq_ofNat_of_zero_le h.1
  have htime : time ≤ 4294967295 := by omega
  have hnat : (JsNumber.ofNat time).toNat? = some time :=
    JsNumber.toNat?_ofNat (htime.trans (by norm_num))
  rw [requireRippleTime_eq_ok, Int.toNat_natCast]
  show (JsNumber.ofNat time).toNat?.filter (· ≤ 0xffffffff) = some time
  rw [hnat]
  simp [Option.filter, htime]

/-- The lifecycle function answers for every row that the table admits. -/
theorem projectCredentialLifecycle_row {closeTime : ℤ}
    (hclose : 0 ≤ closeTime ∧ closeTime ≤ 4294967295)
    {row : CredentialGenerationRow} (h : GenerationEvidence row) :
    projectCredentialLifecycle (lifecycleInput closeTime row) = .ok (stateOf closeTime row) := by
  refine projectCredentialLifecycle_eq_ok (requireRippleTime_columnNumber hclose) ?_
  unfold lifecycleInput
  cases hexpiration : row.expiration with
  | none => rfl
  | some n =>
      simp only [Option.map_some, requireExpiration,
        requireRippleTime_columnNumber (h.expiration n hexpiration)]
      rfl

/-! ## One state, written twice -/

section States

variable {closeTime : ℤ} {row : CredentialGenerationRow}

theorem notYetExpired_eq_true :
    notYetExpired closeTime row = some true
      ↔ ∀ time, row.expiration = some time → closeTime < time := by
  cases h : row.expiration with
  | none => simp [notYetExpired, h]
  | some time => simp [notYetExpired, h]

/-- A row that is neither deleted nor expired is active or pending. -/
theorem stateOf_live (hclose : 0 ≤ closeTime) (hdeleted : row.deletedLedgerIndex = none)
    (hlive : ∀ time, row.expiration = some time → closeTime < time) :
    stateOf closeTime row = if row.accepted then .active else .pending := by
  have hnot : (row.expiration.map Int.toNat).any (· ≤ closeTime.toNat) = false := by
    cases htime : row.expiration with
    | none => rfl
    | some time =>
        have := hlive time htime
        simp only [Option.map_some, Option.any_some, decide_eq_false_iff_not, not_le]
        omega
  simp [stateOf, lifecycleState, hdeleted, hnot]

/-- A row is in one of three positions: deleted, expired at the close time, or live. -/
inductive Position (closeTime : ℤ) (row : CredentialGenerationRow) : Prop where
  | deleted {index : ℤ} (hdeleted : row.deletedLedgerIndex = some index)
      (hstate : stateOf closeTime row = .deleted)
  | expired {time : ℤ} (hdeleted : row.deletedLedgerIndex = none)
      (hexpiration : row.expiration = some time) (hle : time ≤ closeTime)
      (hstate : stateOf closeTime row = .expired)
  | live (hdeleted : row.deletedLedgerIndex = none)
      (hlive : ∀ time, row.expiration = some time → closeTime < time)
      (hstate : stateOf closeTime row = if row.accepted then .active else .pending)

theorem position (hclose : 0 ≤ closeTime) (row : CredentialGenerationRow) :
    Position closeTime row := by
  cases hdeleted : row.deletedLedgerIndex with
  | some index => exact .deleted hdeleted (by simp [stateOf, lifecycleState, hdeleted])
  | none =>
      by_cases hexpired : ∃ time, row.expiration = some time ∧ time ≤ closeTime
      · obtain ⟨time, hexpiration, hle⟩ := hexpired
        have hnat : time.toNat ≤ closeTime.toNat := Int.toNat_le_toNat hle
        exact .expired hdeleted hexpiration hle
          (by simp [stateOf, lifecycleState, hdeleted, hexpiration, hnat])
      · have hlive : ∀ time, row.expiration = some time → closeTime < time := by
          intro time hexpiration
          by_contra hle
          exact hexpired ⟨time, hexpiration, not_lt.mp hle⟩
        exact .live hdeleted hlive (stateOf_live hclose hdeleted hlive)

/-- The two `CASE`s of live credentials differ in what they ask of `accepted`. -/
theorem liveCase_eq_true (hclose : 0 ≤ closeTime) (accepted : Bool) :
    all [isNull row.deletedLedgerIndex, notYetExpired closeTime row,
        compare (· == ·) (some row.accepted) (some accepted)] = some true
      ↔ stateOf closeTime row = if accepted then .active else .pending := by
  rw [all_cons_eq_true, all_cons_eq_true, notYetExpired_eq_true]
  cases position hclose row with
  | deleted hdeleted hstate => cases accepted <;> simp [hdeleted, hstate]
  | expired hdeleted hexpiration hle hstate =>
      cases accepted <;> simp [hdeleted, hexpiration, hle, hstate]
  | live hdeleted hlive hstate =>
      have hall : (∀ time, row.expiration = some time → closeTime < time) ↔ True :=
        iff_true_intro hlive
      rw [hstate, hall]
      cases row.accepted <;> cases accepted <;> simp [hdeleted]

theorem pendingCase_eq_true (hclose : 0 ≤ closeTime) :
    pendingCase closeTime row = some true ↔ stateOf closeTime row = .pending :=
  liveCase_eq_true hclose false

theorem activeCase_eq_true (hclose : 0 ≤ closeTime) :
    activeCase closeTime row = some true ↔ stateOf closeTime row = .active :=
  liveCase_eq_true hclose true

theorem expiredCase_eq_true (hclose : 0 ≤ closeTime) :
    expiredCase closeTime row = some true ↔ stateOf closeTime row = .expired := by
  rw [expiredCase, all_cons_eq_true, all_cons_eq_true]
  cases position hclose row with
  | deleted hdeleted hstate => simp [hdeleted, hstate]
  | expired hdeleted hexpiration hle hstate => simp [hdeleted, hexpiration, hle, hstate]
  | live hdeleted hlive hstate =>
      rw [hstate]
      cases hexpiration : row.expiration with
      | none => cases row.accepted <;> simp
      | some time =>
          have := hlive time hexpiration
          cases row.accepted <;> simp [this]

theorem deletedCase_eq_true (hclose : 0 ≤ closeTime) :
    deletedCase row = some true ↔ stateOf closeTime row = .deleted := by
  rw [deletedCase]
  cases position hclose row with
  | deleted hdeleted hstate => simp [hdeleted, hstate]
  | expired hdeleted _ _ hstate => simp [hdeleted, hstate]
  | live hdeleted _ hstate =>
      rw [hstate]
      cases row.accepted <;> simp [hdeleted]

theorem any_notUint32_iff {n : ℤ} (h : 0 ≤ n ∧ n ≤ 4294967295) (ts : List Truth) :
    any (notUint32 (some n) ++ ts) = some true ↔ any ts = some true := by
  have hlow : ¬n < 0 := by omega
  have hhigh : ¬4294967295 < n := by omega
  simp [notUint32, hlow, hhigh]

/-- The `CASE` of broken evidence is true of no row that the table admits. -/
theorem invalidEvidenceCase_ne_true (h : GenerationEvidence row) :
    invalidEvidenceCase row ≠ some true := by
  have htransaction : ¬row.createdTransactionIndex < 0 := not_lt.mpr h.transaction
  have horder : ¬row.lastLedgerIndex < row.createdLedgerIndex := not_lt.mpr h.order
  have hexpiration : all [isNotNull row.expiration, any (notUint32 row.expiration)]
      ≠ some true := by
    cases hvalue : row.expiration with
    | none => simp
    | some time =>
        have := any_notUint32_iff (h.expiration time hvalue) []
        rw [List.append_nil] at this
        simp [this]
  have hdeleted : all [isNotNull row.deletedLedgerIndex,
      any (notUint32 row.deletedLedgerIndex
        ++ [compare (· < ·) row.deletedLedgerIndex (some row.createdLedgerIndex),
          compare (· != ·) row.deletedLedgerIndex (some row.lastLedgerIndex)])] ≠ some true := by
    cases hvalue : row.deletedLedgerIndex with
    | none => simp
    | some index =>
        rw [Ne, h.deleted index hvalue, all_cons_eq_true, all_cons_eq_true,
          any_notUint32_iff h.last]
        simp [horder]
  intro hcase
  simp only [invalidEvidenceCase, List.append_assoc, List.cons_append, List.nil_append,
    any_cons_eq_true, any_notUint32_iff h.created, any_notUint32_iff h.last, hexpiration,
    hdeleted, any_nil] at hcase
  simp [htransaction, horder] at hcase

end States

/-! ## The statistics -/

/-- `DiscoveryStats['schemas']` -/
structure SchemaStats where
  total : ℤ
  publishers : ℤ
  minimumLedgerIndex : Option ℤ
  maximumLedgerIndex : Option ℤ
  deriving DecidableEq

/-- `DiscoveryStats['credentialGenerations']` -/
structure GenerationStats where
  total : ℤ
  pending : ℤ
  active : ℤ
  expired : ℤ
  deleted : ℤ
  invalidEvidence : ℤ
  minimumCreatedLedgerIndex : Option ℤ
  maximumLastLedgerIndex : Option ℤ
  deriving DecidableEq

/-- `DiscoveryStats` -/
structure DiscoveryStats where
  schemas : SchemaStats
  credentialGenerations : GenerationStats
  deriving DecidableEq

/-- The table `schemas`. -/
abbrev SchemaTable := TableContents SchemaRow SchemaRow.checks

/-- The table `credential_generations`. -/
abbrev GenerationTable := TableContents CredentialGenerationRow CredentialGenerationRow.checks

/-- The first `SELECT` of `getDiscoveryStats`. -/
def schemaStats (rows : List SchemaRow) : SchemaStats where
  total := rows.length
  publishers := countDistinct (fun row => some row.publisher) rows
  minimumLedgerIndex := minimum (fun row => some row.ledgerIndex) rows
  maximumLedgerIndex := maximum (fun row => some row.ledgerIndex) rows

/-- The second `SELECT` of `getDiscoveryStats`. -/
def generationStats (closeTime : ℤ) (rows : List CredentialGenerationRow) : GenerationStats where
  total := rows.length
  pending := count (fun row => caseWhen (pendingCase closeTime row)) rows
  active := count (fun row => caseWhen (activeCase closeTime row)) rows
  expired := count (fun row => caseWhen (expiredCase closeTime row)) rows
  deleted := count (fun row => caseWhen (deletedCase row)) rows
  invalidEvidence := count (fun row => caseWhen (invalidEvidenceCase row)) rows
  minimumCreatedLedgerIndex := minimum (fun row => some row.createdLedgerIndex) rows
  maximumLastLedgerIndex := maximum (fun row => some row.lastLedgerIndex) rows

/-- `getDiscoveryStats`.  Both statements aggregate without `GROUP BY`, so each answers one row. -/
def getDiscoveryStats (schemas : SchemaTable) (generations : GenerationTable)
    (profileId : JsString) (checkpointCloseTime : ℤ) : DiscoveryStats where
  schemas := schemaStats (schemas.ofProfile SchemaRow.profileId profileId).rows
  credentialGenerations := generationStats checkpointCloseTime
    (generations.ofProfile CredentialGenerationRow.profileId profileId).rows

/-! ## What is shown -/

/-- `schemaLedgerShape` and `credentialLedgerShape`: the least and the greatest index of no row,
or of some. -/
def ledgerShape (total : ℤ) (least greatest : Option ℤ) : Bool :=
  if total = 0 then least.isNone && greatest.isNone
  else
    match least, greatest with
    | some least, some greatest =>
        isSafeInteger least && isSafeInteger greatest && decide (least ≤ greatest)
    | _, _ => false

/-- The figures of the answer. -/
structure PublicDiscoveryStats where
  schemasTotal : ℤ
  publishers : ℤ
  total : ℤ
  pending : ℤ
  active : ℤ
  expired : ℤ
  deleted : ℤ
  projectionLedgerIndexes : List ℤ
  deriving DecidableEq

/-- `invalidIndexerEvidence` -/
def invalidIndexerEvidence {α : Type} (message : JsString) : Except IndexerUnavailable α :=
  .error ⟨.evidenceInvalid, message⟩

/-- `validCounts` -/
def validCounts (stats : DiscoveryStats) : Bool :=
  [stats.schemas.total, stats.schemas.publishers, stats.credentialGenerations.total,
    stats.credentialGenerations.pending, stats.credentialGenerations.active,
    stats.credentialGenerations.expired, stats.credentialGenerations.deleted,
    stats.credentialGenerations.invalidEvidence].all
      fun value => isSafeInteger value && decide (0 ≤ value)

/-- The statistics are complete and do not contradict each other.  A sum of counts that are not
negative is exact where it is a safe integer, and no safe integer where it is not exact, so the sum
of the numbers is the total exactly when the sum of the integers is. -/
def consistentStats (stats : DiscoveryStats) : Bool :=
  validCounts stats
    && decide (stats.schemas.publishers ≤ stats.schemas.total)
    && decide (stats.credentialGenerations.invalidEvidence = 0)
    && decide (stats.credentialGenerations.pending + stats.credentialGenerations.active
        + stats.credentialGenerations.expired + stats.credentialGenerations.deleted
        = stats.credentialGenerations.total)
    && ledgerShape stats.schemas.total stats.schemas.minimumLedgerIndex
        stats.schemas.maximumLedgerIndex
    && ledgerShape stats.credentialGenerations.total
        stats.credentialGenerations.minimumCreatedLedgerIndex
        stats.credentialGenerations.maximumLastLedgerIndex

/-- `publicDiscoveryStats` -/
def publicDiscoveryStats (stats : DiscoveryStats) :
    Except IndexerUnavailable PublicDiscoveryStats :=
  if consistentStats stats then
    .ok
      { schemasTotal := stats.schemas.total
        publishers := stats.schemas.publishers
        total := stats.credentialGenerations.total
        pending := stats.credentialGenerations.pending
        active := stats.credentialGenerations.active
        expired := stats.credentialGenerations.expired
        deleted := stats.credentialGenerations.deleted
        projectionLedgerIndexes :=
          [stats.schemas.minimumLedgerIndex, stats.schemas.maximumLedgerIndex,
            stats.credentialGenerations.minimumCreatedLedgerIndex,
            stats.credentialGenerations.maximumLastLedgerIndex].reduceOption }
  else
    invalidIndexerEvidence
      (js "The indexed discovery aggregates are incomplete or inconsistent.")

/-! ## The two agree -/

section Agreement

variable {closeTime : ℤ} {rows : List CredentialGenerationRow}

/-- The `CASE`s count the states of the rows. -/
theorem generationStats_eq (hclose : 0 ≤ closeTime)
    (h : ∀ row ∈ rows, GenerationEvidence row) :
    (generationStats closeTime rows).pending = (rows.map (stateOf closeTime)).count .pending ∧
    (generationStats closeTime rows).active = (rows.map (stateOf closeTime)).count .active ∧
    (generationStats closeTime rows).expired = (rows.map (stateOf closeTime)).count .expired ∧
    (generationStats closeTime rows).deleted = (rows.map (stateOf closeTime)).count .deleted ∧
    (generationStats closeTime rows).invalidEvidence = 0 := by
  refine ⟨?_, ?_, ?_, ?_, ?_⟩
  · exact congrArg _ (count_caseWhen_eq_count fun row _ => pendingCase_eq_true hclose)
  · exact congrArg _ (count_caseWhen_eq_count fun row _ => activeCase_eq_true hclose)
  · exact congrArg _ (count_caseWhen_eq_count fun row _ => expiredCase_eq_true hclose)
  · exact congrArg _ (count_caseWhen_eq_count fun row _ => deletedCase_eq_true hclose)
  · exact congrArg Int.ofNat
      (count_caseWhen_eq_zero fun row hrow => invalidEvidenceCase_ne_true (h row hrow))

/-- Every state is one of the four. -/
theorem count_states (states : List CredentialLifecycleState) :
    states.count .pending + states.count .active + states.count .expired + states.count .deleted
      = states.length := by
  induction states with
  | nil => rfl
  | cons state states ih =>
      cases state <;> simp <;> omega

/-- The lifecycle function answers for every row. -/
theorem mapM_projectCredentialLifecycle (hclose : 0 ≤ closeTime ∧ closeTime ≤ 4294967295)
    (h : ∀ row ∈ rows, GenerationEvidence row) :
    rows.mapM (fun row => projectCredentialLifecycle (lifecycleInput closeTime row))
      = .ok (rows.map (stateOf closeTime)) := by
  rw [mapM_eq_ok, List.forall₂_map_right_iff, List.forall₂_same]
  exact fun row hrow => projectCredentialLifecycle_row hclose (h row hrow)

/-- A count of rows of a table is a number that is shown. -/
theorem isCount {m : ℕ} (h : m < tableRowLimit) :
    (isSafeInteger (m : ℤ) && decide (0 ≤ (m : ℤ))) = true := by
  have hlimit : tableRowLimit = 1249835483136 := by norm_num [tableRowLimit]
  have hmax : (maxSafeInteger : ℤ) = 9007199254740991 := rfl
  rw [isSafeInteger, abs_of_nonneg (Int.natCast_nonneg m), Bool.and_eq_true, decide_eq_true_eq,
    decide_eq_true_eq]
  omega

/-- The least and the greatest index of any rows have the shape that is demanded. -/
theorem ledgerShape_rows {Row : Type} {low high : Row → ℤ} {rows : List Row}
    (hlow : ∀ row ∈ rows, 0 ≤ low row ∧ low row ≤ 4294967295)
    (hhigh : ∀ row ∈ rows, 0 ≤ high row ∧ high row ≤ 4294967295)
    (hle : ∀ row ∈ rows, low row ≤ high row) :
    ledgerShape rows.length (minimum (fun row => some (low row)) rows)
      (maximum (fun row => some (high row)) rows) = true := by
  by_cases hne : rows = []
  · subst hne
    rfl
  · obtain ⟨row₁, hrow₁, row₂, hrow₂, hmin, hmax, hbound⟩ := exists_minimum_le_maximum hne hle
    have hlength : ¬(rows.length : ℤ) = 0 := by simpa using hne
    unfold ledgerShape
    rw [if_neg hlength, hmin, hmax]
    simp [isSafeInteger_of_uint32 (hlow row₁ hrow₁), isSafeInteger_of_uint32 (hhigh row₂ hrow₂),
      hbound]

variable {schemaRows : List SchemaRow}

theorem validCounts_rows (hschemas : schemaRows.length < tableRowLimit)
    (hrows : rows.length < tableRowLimit) :
    validCounts ⟨schemaStats schemaRows, generationStats closeTime rows⟩ = true := by
  have hcount : ∀ value : CredentialGenerationRow → Option ℤ,
      (isSafeInteger (count value rows : ℤ) && decide (0 ≤ (count value rows : ℤ))) = true :=
    fun value => isCount (Nat.lt_of_le_of_lt (count_le_length value rows) hrows)
  have hpublishers := isCount (Nat.lt_of_le_of_lt
    (countDistinct_le_length (fun row : SchemaRow => some row.publisher) schemaRows) hschemas)
  simp only [validCounts, schemaStats, generationStats, List.all_cons, List.all_nil, hcount,
    hpublishers, isCount hschemas, isCount hrows, Bool.and_self]

/-- Every row is counted in one state and in no other. -/
theorem sum_generationStats (hclose : 0 ≤ closeTime)
    (hrows : ∀ row ∈ rows, GenerationEvidence row) :
    (generationStats closeTime rows).pending + (generationStats closeTime rows).active
      + (generationStats closeTime rows).expired + (generationStats closeTime rows).deleted
      = (generationStats closeTime rows).total := by
  obtain ⟨hpending, hactive, hexpired, hdeleted, -⟩ := generationStats_eq hclose hrows
  have htotal := count_states (rows.map (stateOf closeTime))
  rw [List.length_map] at htotal
  rw [hpending, hactive, hexpired, hdeleted]
  show _ = (rows.length : ℤ)
  exact_mod_cast htotal

/-- What is counted of rows that the tables admit does not contradict itself. -/
theorem consistentStats_rows (hclose : 0 ≤ closeTime)
    (hschemaLimit : schemaRows.length < tableRowLimit) (hlimit : rows.length < tableRowLimit)
    (hschemas : ∀ row ∈ schemaRows, 0 ≤ row.ledgerIndex ∧ row.ledgerIndex ≤ 4294967295)
    (hrows : ∀ row ∈ rows, GenerationEvidence row) :
    consistentStats ⟨schemaStats schemaRows, generationStats closeTime rows⟩ = true := by
  have hinvalid : (generationStats closeTime rows).invalidEvidence = 0 :=
    (generationStats_eq hclose hrows).2.2.2.2
  have hpublishers : (schemaStats schemaRows).publishers ≤ (schemaStats schemaRows).total :=
    Int.ofNat_le.mpr (countDistinct_le_length _ schemaRows)
  have hschemaShape : ledgerShape (schemaStats schemaRows).total
      (schemaStats schemaRows).minimumLedgerIndex (schemaStats schemaRows).maximumLedgerIndex
      = true :=
    ledgerShape_rows hschemas hschemas fun _ _ => Int.le_refl _
  have hshape : ledgerShape (generationStats closeTime rows).total
      (generationStats closeTime rows).minimumCreatedLedgerIndex
      (generationStats closeTime rows).maximumLastLedgerIndex = true :=
    ledgerShape_rows (fun row hrow => (hrows row hrow).created)
      (fun row hrow => (hrows row hrow).last) fun row hrow => (hrows row hrow).order
  simp only [consistentStats, validCounts_rows hschemaLimit hlimit, hpublishers, hinvalid,
    sum_generationStats hclose hrows, hschemaShape, hshape, decide_true, Bool.and_self]

end Agreement

/-- Figures that are the histogram of a list of states, each state counted once. -/
structure IsHistogram (states : List CredentialLifecycleState)
    (total pending active expired deleted : ℤ) : Prop where
  total_eq : total = states.length
  pending_eq : pending = states.count .pending
  active_eq : active = states.count .active
  expired_eq : expired = states.count .expired
  deleted_eq : deleted = states.count .deleted
  partition : pending + active + expired + deleted = total

/-- The `CASE`s over rows that the table admits are the histogram of their states. -/
theorem isHistogram_generationStats {closeTime : ℤ} {rows : List CredentialGenerationRow}
    (hclose : 0 ≤ closeTime) (hrows : ∀ row ∈ rows, GenerationEvidence row) :
    IsHistogram (rows.map (stateOf closeTime)) (generationStats closeTime rows).total
      (generationStats closeTime rows).pending (generationStats closeTime rows).active
      (generationStats closeTime rows).expired (generationStats closeTime rows).deleted where
  total_eq := by
    rw [List.length_map]
    rfl
  pending_eq := (generationStats_eq hclose hrows).1
  active_eq := (generationStats_eq hclose hrows).2.1
  expired_eq := (generationStats_eq hclose hrows).2.2.1
  deleted_eq := (generationStats_eq hclose hrows).2.2.2.1
  partition := sum_generationStats hclose hrows

/-- **The figures agree with the lifecycle function.**  Whatever rows the two tables hold, of
whatever profile and at whatever close time: the lifecycle function answers for every row, the
counts of the database are the histogram of its answers, and so are the figures that are shown. -/
theorem discoveryStats_agree (schemas : SchemaTable) (generations : GenerationTable)
    (profileId : JsString) (closeTime : ℤ) (hclose : isUint32Column closeTime = true) :
    ∃ states stats shown,
      (generations.ofProfile CredentialGenerationRow.profileId profileId).rows.mapM
          (fun row => projectCredentialLifecycle (lifecycleInput closeTime row)) = .ok states ∧
      getDiscoveryStats schemas generations profileId closeTime = stats ∧
      publicDiscoveryStats stats = .ok shown ∧
      IsHistogram states stats.credentialGenerations.total stats.credentialGenerations.pending
        stats.credentialGenerations.active stats.credentialGenerations.expired
        stats.credentialGenerations.deleted ∧
      IsHistogram states shown.total shown.pending shown.active shown.expired shown.deleted := by
  have htime := isUint32Column_iff.mp hclose
  have hrows : ∀ row ∈ (generations.ofProfile CredentialGenerationRow.profileId profileId).rows,
      GenerationEvidence row :=
    fun row hrow => generationEvidence_of_checks (TableContents.checked _ row hrow)
  have hschemas : ∀ row ∈ (schemas.ofProfile SchemaRow.profileId profileId).rows,
      0 ≤ row.ledgerIndex ∧ row.ledgerIndex ≤ 4294967295 :=
    fun row hrow => ledgerIndex_of_checks (TableContents.checked _ row hrow)
  have hconsistent : consistentStats (getDiscoveryStats schemas generations profileId closeTime)
      = true :=
    consistentStats_rows htime.1 (TableContents.fits _) (TableContents.fits _) hschemas hrows
  have hhistogram := isHistogram_generationStats htime.1 hrows
  exact ⟨_, _, _, mapM_projectCredentialLifecycle htime hrows, rfl,
    by rw [publicDiscoveryStats, if_pos hconsistent], hhistogram, hhistogram⟩

/-! ## A table with a row in each state -/

/-- A generation created in ledger 10. -/
def sampleGeneration (id : CodeUnit) (accepted : Bool) (expiration : Option ℤ) :
    CredentialGenerationRow where
  profileId := js "testnet"
  generationId := List.replicate 64 id
  ledgerObjectId := List.replicate 64 id
  issuer := js "issuer"
  subject := js "subject"
  schemaUid := List.replicate 64 0x61
  uriHex := none
  expiration := expiration
  accepted := accepted
  createdLedgerIndex := 10
  createdTransactionIndex := 0
  lastLedgerIndex := 12
  deletedLedgerIndex := none
  deletionCause := none

/-- Two pending rows, an active one that expires a second after the close time 500, one that
expires at it, and one that is deleted; and a row of another profile. -/
def sampleGenerations : GenerationTable where
  rows :=
    [sampleGeneration 0x30 false none, sampleGeneration 0x31 false (some 501),
      sampleGeneration 0x32 true (some 501), sampleGeneration 0x33 true (some 500),
      { sampleGeneration 0x34 true (some 400) with
        deletedLedgerIndex := some 12, deletionCause := some (js "issuer_revoked") },
      { sampleGeneration 0x35 true none with profileId := js "mainnet" }]
  checked := by decide +kernel
  fits := by norm_num [tableRowLimit]

def sampleSchemas : SchemaTable where
  rows :=
    [{ profileId := js "testnet"
       schemaUid := List.replicate 64 0x61
       publisher := js "publisher"
       name := js "name"
       description := js "description"
       parentUid := none
       supersedesUid := none
       definition := .null
       resolvedDefinition := .null
       registrationTransactionHash := List.replicate 64 0x61
       ledgerIndex := 9
       transactionIndex := 0 }]
  checked := by decide +kernel
  fits := by norm_num [tableRowLimit]

theorem discoveryStats_agree_sample :
    ∃ states stats shown,
      (sampleGenerations.ofProfile CredentialGenerationRow.profileId (js "testnet")).rows.mapM
          (fun row => projectCredentialLifecycle (lifecycleInput 500 row)) = .ok states ∧
      getDiscoveryStats sampleSchemas sampleGenerations (js "testnet") 500 = stats ∧
      publicDiscoveryStats stats = .ok shown ∧
      IsHistogram states stats.credentialGenerations.total stats.credentialGenerations.pending
        stats.credentialGenerations.active stats.credentialGenerations.expired
        stats.credentialGenerations.deleted ∧
      IsHistogram states shown.total shown.pending shown.active shown.expired shown.deleted :=
  discoveryStats_agree sampleSchemas sampleGenerations (js "testnet") 500 (by decide)

example : publicDiscoveryStats
      (getDiscoveryStats sampleSchemas sampleGenerations (js "testnet") 500)
    = .ok ⟨1, 1, 5, 2, 1, 1, 1, [9, 9, 10, 12]⟩ := by
  decide +kernel

end Web
end Xcs
