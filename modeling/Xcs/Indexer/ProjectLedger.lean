import Xcs.Indexer.Registration
import Xcs.Indexer.CredentialMutations

/-!
# The projection of a ledger

`projectLedger` interprets the transactions of a ledger in order.  A schema that a transaction
registers is known to the transactions after it, so the catalog grows as the loop proceeds.
-/

namespace Xcs
namespace Indexer

open Js Json Xcs.Core

/-! ## Continuity -/

/-- `assertLedgerContinuity` -/
def assertLedgerContinuity (profile : NetworkProfile) (previous : Option Checkpoint)
    (ledger : ValidatedLedger) : Except Thrown Unit :=
  match previous with
  | none =>
      if ledger.ledgerIndex ≠ profile.activationLedgerIndex then
        .error (.continuity
          (if ledger.ledgerIndex < profile.activationLedgerIndex then .ledgerBeforeActivation
            else .ledgerGap)
          (js "Expected activation ledger " ++ natToString profile.activationLedgerIndex
            ++ js ", received " ++ natToString ledger.ledgerIndex))
      else if ledger.ledgerHash ≠ toLowerCase profile.activationLedgerHash then
        .error (.continuity .activationHashMismatch
          (js "Activation ledger hash does not match profile " ++ profile.profileId))
      else .ok ()
  | some previous =>
      if ledger.ledgerIndex ≠ previous.ledgerIndex + 1 then
        .error (.continuity .ledgerGap
          (js "Expected ledger " ++ natToString (previous.ledgerIndex + 1)
            ++ js ", received " ++ natToString ledger.ledgerIndex))
      else if ledger.parentHash ≠ previous.ledgerHash then
        .error (.continuity .ledgerParentMismatch
          (js "Ledger " ++ natToString ledger.ledgerIndex ++ js " does not descend from "
            ++ previous.ledgerHash))
      else .ok ()

/-- The loop of `assertTransactionOrdering`. -/
def assertTransactionPositions (ledgerIndex : ℕ) :
    ℕ → List LedgerTransaction → Except Thrown Unit
  | _, [] => .ok ()
  | position, transaction :: transactions => do
      ensure (transaction.transactionIndex == position)
        (.continuity .ledgerGap
          (js "Ledger " ++ natToString ledgerIndex ++ js " is missing transaction index "
            ++ natToString position))
      assertTransactionPositions ledgerIndex (position + 1) transactions

/-- `assertTransactionOrdering` -/
def assertTransactionOrdering (ledger : ValidatedLedger) : Except Thrown Unit :=
  assertTransactionPositions ledger.ledgerIndex 0 ledger.transactions

/-- What continuity asks of a ledger. -/
def Continues (profile : NetworkProfile) : Option Checkpoint → ValidatedLedger → Prop
  | none, ledger =>
      ledger.ledgerIndex = profile.activationLedgerIndex ∧
        ledger.ledgerHash = toLowerCase profile.activationLedgerHash
  | some previous, ledger =>
      ledger.ledgerIndex = previous.ledgerIndex + 1 ∧ ledger.parentHash = previous.ledgerHash

theorem assertLedgerContinuity_eq_ok {profile : NetworkProfile} {previous : Option Checkpoint}
    {ledger : ValidatedLedger} {u : Unit} :
    assertLedgerContinuity profile previous ledger = .ok u ↔
      Continues profile previous ledger := by
  cases previous with
  | none =>
      rw [assertLedgerContinuity, Continues]
      split_ifs with hindex hhash
      · simp [hindex]
      · simp [hhash]
      · simpa using ⟨not_not.mp hindex, not_not.mp hhash⟩
  | some previous =>
      rw [assertLedgerContinuity, Continues]
      split_ifs with hindex hparent
      · simp [hindex]
      · simp [hparent]
      · simpa using ⟨not_not.mp hindex, not_not.mp hparent⟩

theorem assertTransactionPositions_eq_ok {ledgerIndex position : ℕ}
    {transactions : List LedgerTransaction} {u : Unit} :
    assertTransactionPositions ledgerIndex position transactions = .ok u ↔
      transactions.map (·.transactionIndex) = List.range' position transactions.length := by
  induction transactions generalizing position with
  | nil => simp [assertTransactionPositions]
  | cons transaction transactions ih =>
      simp only [assertTransactionPositions, bind_eq_ok, ensure_eq_ok, exists_const, beq_iff_eq,
        ih, List.map_cons, List.length_cons, List.range'_succ, List.cons.injEq]

/-! ## The catalog -/

/-- `catalog.set(uid, entry)` -/
def setSchema (catalog : SchemaLookup) (entry : RegisteredSchema) : SchemaLookup :=
  fun uid => if uid = entry.uid then some entry else catalog uid

@[simp] theorem setSchema_self (catalog : SchemaLookup) (entry : RegisteredSchema) :
    setSchema catalog entry entry.uid = some entry := by
  simp [setSchema]

theorem setSchema_of_ne (catalog : SchemaLookup) {entry : RegisteredSchema} {uid : JsString}
    (h : uid ≠ entry.uid) : setSchema catalog entry uid = catalog uid := by
  simp [setSchema, h]

/-- The catalog entry of an accepted registration. -/
def catalogEntry (profile : NetworkProfile) (ledgerIndex : ℕ)
    (registration : SchemaRegistrationResult) : Option RegisteredSchema :=
  match registration.outcome with
  | .accepted schemaUid _ definition _ =>
      some { uid := schemaUid
             definition := definition.toJs
             publisher := registration.publisher
             networkId := profile.networkId
             ledgerIndex
             transactionIndex := registration.transactionIndex }
  | .rejected _ _ => none

/-- The catalog after a registration. -/
def recordRegistration (profile : NetworkProfile) (ledgerIndex : ℕ) (catalog : SchemaLookup)
    (registration : SchemaRegistrationResult) : SchemaLookup :=
  match catalogEntry profile ledgerIndex registration with
  | some entry => setSchema catalog entry
  | none => catalog

/-- The catalog after the registrations of a ledger. -/
def recordRegistrations (profile : NetworkProfile) (ledgerIndex : ℕ) (catalog : SchemaLookup)
    (registrations : List SchemaRegistrationResult) : SchemaLookup :=
  registrations.foldl (recordRegistration profile ledgerIndex) catalog

/-! ## The loop -/

/-- The registration of a transaction as a list of at most one. -/
def transactionRegistrations (P : Platform) (ledger : ValidatedLedger) (profile : NetworkProfile)
    (catalog : SchemaLookup) (transaction : LedgerTransaction) : List SchemaRegistrationResult :=
  (interpretSchemaRegistration P transaction ledger.ledgerHash ledger.ledgerIndex profile
    catalog).toList

/-- The loop of `projectLedger` over the transactions. -/
def projectTransactions (P : Platform) (ledger : ValidatedLedger) (profile : NetworkProfile) :
    List LedgerTransaction → SchemaLookup →
      List SchemaRegistrationResult × List CredentialMutation × ℕ
  | [], _ => ([], [], 0)
  | transaction :: transactions, catalog =>
      let registrations := transactionRegistrations P ledger profile catalog transaction
      let catalog := recordRegistrations profile ledger.ledgerIndex catalog registrations
      let extracted := extractCredentialMutations P transaction ledger.closeTime
        fun uid => (catalog uid).isSome
      let rest := projectTransactions P ledger profile transactions catalog
      (registrations ++ rest.1, extracted.mutations ++ rest.2.1,
        extracted.malformedCredentialNodes + rest.2.2)

/-- `projectLedger` -/
def projectLedger (P : Platform) (ledger : ValidatedLedger) (profile : NetworkProfile)
    (initialCatalog : SchemaLookup) : Except Thrown LedgerProjection := do
  assertTransactionOrdering ledger
  let projected := projectTransactions P ledger profile ledger.transactions initialCatalog
  pure { ledger
         schemaRegistrations := projected.1
         credentialMutations := projected.2.1
         malformedCredentialNodes := projected.2.2 }

theorem projectLedger_eq_ok {P : Platform} {ledger : ValidatedLedger} {profile : NetworkProfile}
    {catalog : SchemaLookup} {projection : LedgerProjection} :
    projectLedger P ledger profile catalog = .ok projection ↔
      ledger.transactions.map (·.transactionIndex) = List.range' 0 ledger.transactions.length ∧
        projection = ⟨ledger,
          (projectTransactions P ledger profile ledger.transactions catalog).1,
          (projectTransactions P ledger profile ledger.transactions catalog).2.1,
          (projectTransactions P ledger profile ledger.transactions catalog).2.2⟩ := by
  simp only [projectLedger, assertTransactionOrdering, bind_eq_ok,
    assertTransactionPositions_eq_ok, exists_const, pure_eq_ok]
  exact and_congr_right fun _ => eq_comm

theorem projectLedger_ledger {P : Platform} {ledger : ValidatedLedger} {profile : NetworkProfile}
    {catalog : SchemaLookup} {projection : LedgerProjection}
    (h : projectLedger P ledger profile catalog = .ok projection) : projection.ledger = ledger := by
  obtain ⟨-, rfl⟩ := projectLedger_eq_ok.mp h
  rfl

/-- The registrations of a ledger come from its transactions, each under some catalog. -/
theorem mem_projectTransactions {P : Platform} {ledger : ValidatedLedger}
    {profile : NetworkProfile} {transactions : List LedgerTransaction} {catalog : SchemaLookup}
    {registration : SchemaRegistrationResult}
    (h : registration ∈ (projectTransactions P ledger profile transactions catalog).1) :
    ∃ transaction ∈ transactions, ∃ catalog,
      interpretSchemaRegistration P transaction ledger.ledgerHash ledger.ledgerIndex profile catalog
        = some registration := by
  induction transactions generalizing catalog with
  | nil => simp [projectTransactions] at h
  | cons transaction transactions ih =>
      rw [projectTransactions, List.mem_append] at h
      rcases h with h | h
      · rw [transactionRegistrations, Option.mem_toList] at h
        exact ⟨transaction, List.mem_cons_self .., catalog, h⟩
      · obtain ⟨tx, htx, catalog, hread⟩ := ih h
        exact ⟨tx, List.mem_cons_of_mem _ htx, catalog, hread⟩

/-- Every transaction of a ledger is interpreted, under some catalog. -/
theorem exists_mem_projectTransactions {P : Platform} {ledger : ValidatedLedger}
    {profile : NetworkProfile} {transactions : List LedgerTransaction} {catalog : SchemaLookup}
    {transaction : LedgerTransaction} (h : transaction ∈ transactions) :
    ∃ catalog', ∀ registration,
      interpretSchemaRegistration P transaction ledger.ledgerHash ledger.ledgerIndex profile
          catalog' = some registration →
        registration ∈ (projectTransactions P ledger profile transactions catalog).1 := by
  induction transactions generalizing catalog with
  | nil => exact absurd h List.not_mem_nil
  | cons tx transactions ih =>
      rcases List.mem_cons.mp h with rfl | h
      · refine ⟨catalog, fun registration hread => ?_⟩
        rw [projectTransactions, List.mem_append]
        exact Or.inl (by rw [transactionRegistrations, hread]; exact List.mem_singleton_self _)
      · obtain ⟨catalog', hmem⟩ := @ih (recordRegistrations profile ledger.ledgerIndex
          catalog (transactionRegistrations P ledger profile catalog tx)) h
        refine ⟨catalog', fun registration hread => ?_⟩
        rw [projectTransactions, List.mem_append]
        exact Or.inr (hmem registration hread)

end Indexer
end Xcs
