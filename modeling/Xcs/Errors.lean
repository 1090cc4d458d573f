import Mathlib.Data.List.Forall2
import Xcs.Js.Text
import Xcs.Js.Number

/-!
# What the program throws

Every fallible function of the program throws a value of one of its own error classes, an error
of the language, or an error of the database driver.  `Thrown` is their sum; of a
`SchemaProjectionInvalidError` the cause, which nothing reads, is left out.  Two readers look at
what was thrown: the registration interpreter asks for the class, and `sourceErrorCode` asks for
a `code` property and keeps it when it is one of the stable codes.

* `failXcs` is the `fail` of the protocol package.
* `matches_sourceErrorCode` says that whatever was thrown, the code the indexer records has the
  shape the database demands.
-/

namespace Xcs

open Js

/-! ## The protocol package -/

/-- `XcsErrorCode` -/
inductive XcsErrorCode where
  | invalidNetworkProfile
  | invalidSchema
  | invalidSchemaReference
  | invalidClaims
  | invalidUidInput
  | invalidCredentialPayload
  | invalidPayloadUri
  | invalidRippleTime
  | invalidJson
  | nonCanonicalJson
  | unsupportedJsonValue
  deriving DecidableEq

/-- The text of a code. -/
def XcsErrorCode.text : XcsErrorCode → JsString
  | .invalidNetworkProfile => js "INVALID_NETWORK_PROFILE"
  | .invalidSchema => js "INVALID_SCHEMA"
  | .invalidSchemaReference => js "INVALID_SCHEMA_REFERENCE"
  | .invalidClaims => js "INVALID_CLAIMS"
  | .invalidUidInput => js "INVALID_UID_INPUT"
  | .invalidCredentialPayload => js "INVALID_CREDENTIAL_PAYLOAD"
  | .invalidPayloadUri => js "INVALID_PAYLOAD_URI"
  | .invalidRippleTime => js "INVALID_RIPPLE_TIME"
  | .invalidJson => js "INVALID_JSON"
  | .nonCanonicalJson => js "NON_CANONICAL_JSON"
  | .unsupportedJsonValue => js "UNSUPPORTED_JSON_VALUE"

/-- `XcsError` -/
structure XcsError where
  code : XcsErrorCode
  message : JsString
  path : JsString
  details : List (JsString × JsString)
  deriving DecidableEq

/-! ## The indexer -/

/-- `IndexerLeaseErrorCode` -/
inductive IndexerLeaseErrorCode where
  | unavailable
  | lost
  deriving DecidableEq

/-- The text of a code. -/
def IndexerLeaseErrorCode.text : IndexerLeaseErrorCode → JsString
  | .unavailable => js "INDEXER_LEASE_UNAVAILABLE"
  | .lost => js "INDEXER_LEASE_LOST"

/-- The codes of `LedgerContinuityError`. -/
inductive LedgerContinuityErrorCode where
  | ledgerBeforeActivation
  | ledgerGap
  | ledgerParentMismatch
  | activationHashMismatch
  deriving DecidableEq

/-- The text of a code. -/
def LedgerContinuityErrorCode.text : LedgerContinuityErrorCode → JsString
  | .ledgerBeforeActivation => js "LEDGER_BEFORE_ACTIVATION"
  | .ledgerGap => js "LEDGER_GAP"
  | .ledgerParentMismatch => js "LEDGER_PARENT_MISMATCH"
  | .activationHashMismatch => js "ACTIVATION_HASH_MISMATCH"

/-- `IndexerRepositoryErrorCode`, also the codes of the worker's `CheckpointIntegrityError`. -/
inductive CheckpointErrorCode where
  | evidenceMissing
  | conflict
  deriving DecidableEq

/-- The text of a code. -/
def CheckpointErrorCode.text : CheckpointErrorCode → JsString
  | .evidenceMissing => js "CHECKPOINT_EVIDENCE_MISSING"
  | .conflict => js "CHECKPOINT_CONFLICT"

/-- `ReplayTargetErrorCode` -/
inductive ReplayTargetErrorCode where
  | invalid
  | unavailable
  | mismatch
  | exceeded
  deriving DecidableEq

/-- The text of a code. -/
def ReplayTargetErrorCode.text : ReplayTargetErrorCode → JsString
  | .invalid => js "REPLAY_TARGET_INVALID"
  | .unavailable => js "REPLAY_TARGET_UNAVAILABLE"
  | .mismatch => js "REPLAY_TARGET_MISMATCH"
  | .exceeded => js "REPLAY_TARGET_EXCEEDED"

/-- `XrplSourceErrorCode` -/
inductive XrplSourceErrorCode where
  | responseInvalid
  | networkMismatch
  | historyIncomplete
  | activationMismatch
  | amendmentUnavailable
  | registryNotBlackholed
  | registryNotReceivable
  | divergence
  | tipRegression
  | unavailable
  deriving DecidableEq

/-- The text of a code. -/
def XrplSourceErrorCode.text : XrplSourceErrorCode → JsString
  | .responseInvalid => js "SOURCE_RESPONSE_INVALID"
  | .networkMismatch => js "SOURCE_NETWORK_MISMATCH"
  | .historyIncomplete => js "SOURCE_HISTORY_INCOMPLETE"
  | .activationMismatch => js "SOURCE_ACTIVATION_MISMATCH"
  | .amendmentUnavailable => js "SOURCE_AMENDMENT_UNAVAILABLE"
  | .registryNotBlackholed => js "SOURCE_REGISTRY_NOT_BLACKHOLED"
  | .registryNotReceivable => js "SOURCE_REGISTRY_NOT_RECEIVABLE"
  | .divergence => js "SOURCE_DIVERGENCE"
  | .tipRegression => js "SOURCE_TIP_REGRESSION"
  | .unavailable => js "SOURCE_UNAVAILABLE"

/-! ## The database -/

/-- Why PostgreSQL refused a statement: the constraint, or the column whose value it cannot
store. -/
inductive DatabaseError where
  | check (constraint : JsString)
  | unique (constraint : JsString)
  | foreignKey (constraint : JsString)
  | untranslatableCharacter (column : JsString)
  | numericValueOutOfRange (column : JsString)
  deriving DecidableEq

/-- The `SQLSTATE` the driver puts into the `code` of its error. -/
def DatabaseError.sqlState : DatabaseError → JsString
  | .check _ => js "23514"
  | .unique _ => js "23505"
  | .foreignKey _ => js "23503"
  | .untranslatableCharacter _ => js "22P05"
  | .numericValueOutOfRange _ => js "22003"

/-! ## The sum -/

/-- What a function of the program throws. -/
inductive Thrown where
  | xcs (error : XcsError)
  | syntaxError
  | lease (code : IndexerLeaseErrorCode)
  | continuity (code : LedgerContinuityErrorCode) (message : JsString)
  | checkpoint (code : CheckpointErrorCode) (message : JsString)
  | replayTarget (code : ReplayTargetErrorCode) (message : JsString)
  | source (code : XrplSourceErrorCode) (message : JsString)
  | database (error : DatabaseError)
  | schemaProjectionInvalid
  | error (message : JsString)
  deriving DecidableEq

/-- `fail(code, message, path, details)` -/
def failXcs {α : Type} (code : XcsErrorCode) (message path : JsString)
    (details : List (JsString × JsString)) : Except Thrown α :=
  .error (.xcs ⟨code, message, path, details⟩)

/-- A computation that binds succeeds exactly when both of its halves do. -/
@[simp] theorem bind_eq_ok {ε α β : Type} {x : Except ε α} {f : α → Except ε β} {b : β} :
    (x >>= f) = .ok b ↔ ∃ a, x = .ok a ∧ f a = .ok b := by
  cases x with
  | error e => simp [bind, Except.bind]
  | ok a => simp [bind, Except.bind]

@[simp] theorem pure_eq_ok {ε α : Type} {a b : α} :
    (pure a : Except ε α) = .ok b ↔ a = b := by
  simp [pure, Except.pure]

theorem exists_eq_ok {ε α : Type} {x : Except ε α} (h : x.isOk = true) : ∃ a, x = .ok a := by
  cases x with
  | error e => cases h
  | ok a => exact ⟨a, rfl⟩

/-- The same with the sides of the equation exchanged, for rows that are described by it. -/
theorem pure_eq_ok' {ε α : Type} {a b : α} : (pure a : Except ε α) = .ok b ↔ b = a :=
  pure_eq_ok.trans eq_comm

theorem exists_forall₂ {α β : Type} {R : α → β → Prop} {xs : List α}
    (h : ∀ a ∈ xs, ∃ b, R a b) : ∃ ys, List.Forall₂ R xs ys := by
  induction xs with
  | nil => exact ⟨[], .nil⟩
  | cons a xs ih =>
      obtain ⟨b, hb⟩ := h a List.mem_cons_self
      obtain ⟨ys, hys⟩ := ih fun c hc => h c (List.mem_cons_of_mem a hc)
      exact ⟨b :: ys, .cons hb hys⟩

/-- A map that may throw returns when each of its calls does. -/
theorem mapM_eq_ok {α β ε : Type} {f : α → Except ε β} : ∀ {xs : List α} {ys : List β},
    xs.mapM f = .ok ys ↔ List.Forall₂ (fun a b => f a = .ok b) xs ys
  | [], ys => by
      rw [List.mapM_nil, List.forall₂_nil_left_iff]
      exact pure_eq_ok'
  | a :: xs, ys => by
      simp only [List.mapM_cons, bind_eq_ok, pure_eq_ok, mapM_eq_ok, List.forall₂_cons_left_iff]
      constructor
      · rintro ⟨b, hb, bs, hbs, rfl⟩
        exact ⟨b, bs, hb, hbs, rfl⟩
      · rintro ⟨b, bs, hb, hbs, rfl⟩
        exact ⟨b, hb, bs, hbs, rfl⟩

/-- `throw error` unless the condition holds. -/
def ensure (condition : Bool) (error : Thrown) : Except Thrown Unit :=
  if condition then .ok () else .error error

@[simp] theorem ensure_eq_ok {condition : Bool} {error : Thrown} {u : Unit} :
    ensure condition error = .ok u ↔ condition = true := by
  cases condition <;> simp [ensure]

/-- Whatever a computation throws, it is an `XcsError`. -/
def OnlyXcs {α : Type} (x : Except Thrown α) : Prop :=
  ∀ error, x = .error error → ∃ e, error = .xcs e

theorem onlyXcs_ok {α : Type} (a : α) : OnlyXcs (.ok a) :=
  fun _ h => by cases h

theorem onlyXcs_failXcs {α : Type} (code : XcsErrorCode) (message path : JsString)
    (details : List (JsString × JsString)) :
    OnlyXcs (failXcs code message path details : Except Thrown α) := by
  intro error h
  cases h
  exact ⟨_, rfl⟩

theorem OnlyXcs.bind {α β : Type} {x : Except Thrown α} {f : α → Except Thrown β}
    (hx : OnlyXcs x) (hf : ∀ a, x = .ok a → OnlyXcs (f a)) : OnlyXcs (x >>= f) := by
  intro error h
  cases x with
  | error e =>
      cases h
      exact hx _ rfl
  | ok a => exact hf a rfl error h

/-- What a computation threw, if it threw. -/
def thrown {α : Type} : Except Thrown α → Option Thrown
  | .error error => some error
  | .ok _ => none

theorem exists_eq_ok_of_thrown_eq_none {α : Type} {x : Except Thrown α} (h : thrown x = none) :
    ∃ a, x = .ok a := by
  cases x with
  | error error => cases h
  | ok a => exact ⟨a, rfl⟩

/-- The `code` property of what was thrown, when it is a string. -/
def Thrown.code : Thrown → Option JsString
  | .xcs e => some e.code.text
  | .syntaxError => none
  | .lease code => some code.text
  | .continuity code _ => some code.text
  | .checkpoint code _ => some code.text
  | .replayTarget code _ => some code.text
  | .source code _ => some code.text
  | .database e => some e.sqlState
  | .schemaProjectionInvalid => some (js "SCHEMA_PROJECTION_INVALID")
  | .error _ => none

/-- `STABLE_INDEXER_ERROR_CODES` -/
def stableIndexerErrorCodes : List JsString :=
  [js "SOURCE_RESPONSE_INVALID", js "SOURCE_NETWORK_MISMATCH", js "SOURCE_HISTORY_INCOMPLETE",
    js "SOURCE_ACTIVATION_MISMATCH", js "SOURCE_AMENDMENT_UNAVAILABLE",
    js "SOURCE_REGISTRY_NOT_BLACKHOLED", js "SOURCE_REGISTRY_NOT_RECEIVABLE",
    js "SOURCE_DIVERGENCE", js "SOURCE_TIP_REGRESSION", js "SOURCE_UNAVAILABLE",
    js "LEDGER_BEFORE_ACTIVATION", js "LEDGER_GAP", js "LEDGER_PARENT_MISMATCH",
    js "ACTIVATION_HASH_MISMATCH", js "CHECKPOINT_EVIDENCE_MISSING", js "CHECKPOINT_CONFLICT",
    js "REPLAY_TARGET_INVALID", js "REPLAY_TARGET_UNAVAILABLE", js "REPLAY_TARGET_MISMATCH",
    js "REPLAY_TARGET_EXCEEDED", js "FIXTURE_BUNDLE_INVALID", js "FIXTURE_BUNDLE_OUTPUT_EXISTS",
    js "FIXTURE_BUNDLE_RANGE_INVALID", js "FIXTURE_BUNDLE_SOURCE_UNAVAILABLE",
    js "FIXTURE_BUNDLE_INTEGRITY_FAILED", js "INDEXER_LEASE_UNAVAILABLE",
    js "INDEXER_LEASE_LOST", js "INDEXER_FAILED"]

/-- A `code` property that is one of the stable codes, and `INDEXER_FAILED` in place of any other
or of none. -/
def stableCode : Option JsString → JsString
  | some code => if code ∈ stableIndexerErrorCodes then code else js "INDEXER_FAILED"
  | none => js "INDEXER_FAILED"

/-- `sourceErrorCode` -/
def sourceErrorCode : Thrown → JsString
  | .source code _ => code.text
  | error => stableCode error.code

/-! ## Patterns -/

/-- A pattern of one character of a class followed by at most `bound` characters of another. -/
def matchesIdentifier (head tail : CodeUnit → Bool) (bound : ℕ) : JsString → Bool
  | [] => false
  | u :: rest => head u && decide (rest.length ≤ bound) && rest.all tail

/-- `/^[A-Z][A-Z0-9_]{0,63}$/u`, also the `CHECK` on the error code columns. -/
def matchesErrorCode : JsString → Bool :=
  matchesIdentifier isUpper (fun u => isUpper u || isDigit u || u == 0x5f) 63

/-- `/^[a-z0-9][a-z0-9._-]{0,127}$/u` -/
def matchesProfileId : JsString → Bool :=
  matchesIdentifier (fun u => isLower u || isDigit u)
    (fun u => isLower u || isDigit u || u == 0x2e || u == 0x5f || u == 0x2d) 127

/-- `/^[A-Za-z0-9][A-Za-z0-9._:-]{0,127}$/u` -/
def matchesWriterId : JsString → Bool :=
  matchesIdentifier (fun u => isUpper u || isLower u || isDigit u)
    (fun u => isUpper u || isLower u || isDigit u || u == 0x2e || u == 0x5f || u == 0x3a
      || u == 0x2d) 127

theorem matches_stableIndexerErrorCodes :
    ∀ code ∈ stableIndexerErrorCodes, matchesErrorCode code = true := by
  decide

theorem matches_stableCode : ∀ code : Option JsString, matchesErrorCode (stableCode code) = true
  | none => by decide
  | some code => by
      rw [stableCode]
      split_ifs with h
      · exact matches_stableIndexerErrorCodes code h
      · decide

theorem matches_text (code : XrplSourceErrorCode) : matchesErrorCode code.text = true := by
  cases code <;> decide

/-- **Recorded codes are machine codes.**  Whatever was thrown, the code `sourceErrorCode` makes
of it passes the sanitising pattern. -/
theorem matches_sourceErrorCode (error : Thrown) :
    matchesErrorCode (sourceErrorCode error) = true := by
  have hstable := matches_stableCode error.code
  cases error with
  | source code message => exact matches_text code
  | _ => exact hstable

end Xcs
