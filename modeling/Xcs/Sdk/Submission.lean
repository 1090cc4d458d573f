import Xcs.Errors
import Xcs.Js.Value
import Xcs.Run.Basic

/-!
# Reconciling a submitted transaction

After a submission the client asks the server what became of the transaction.  It looks the
transaction up by hash, and when the server does not know the hash it asks, in a second request,
for the index of the open ledger; past `LastLedgerSequence` the verdict is `expired`, and
`waitForTransaction` stops polling.

The network moves between the two requests, so the answers belong to two states of it.  A
`Network` is what matters of such a state: the last validated ledger, the open ledger, and the
validated ledger that holds the transaction.  Ledgers close and are validated in any rhythm, and
a ledger past `LastLedgerSequence` never takes the transaction.

* `getTransactionStatus_expired` inverts the verdict: the lookup said `txnNotFound` and the open
  ledger was past `LastLedgerSequence`.
* `expired_verdict_race` is a run in which the verdict is `expired` and the transaction is in a
  validated ledger.
* `expired_verdict_final_iff` says from which states of the network a verdict is final whatever
  happens between the requests, and that a polling client whose lookups all meet such a state
  never reports a transaction expired that the network still holds or may take.
-/

namespace Xcs
namespace Sdk

open Js

/-! ## The client -/

/-- What a request can fail with: the error the server sent, or any other failure. -/
structure RpcError where
  dataError : Option JsString
  message : Option JsString

/-- What a request resolves to: the `result` of the response. -/
abbrev RpcResponse := Except RpcError JsValue

/-- What the functions below throw. -/
inductive SdkThrown where
  | sdk (code message : JsString)
  | rpc (error : RpcError)

/-- The `status` of a `TransactionStatus`. -/
inductive TransactionStatusKind where
  | validated
  | pending
  | expired
  | notFound
  deriving DecidableEq

/-- `TransactionStatus` -/
structure TransactionStatus where
  status : TransactionStatusKind
  txHash : JsString
  lastLedgerSequence : Option ℕ
  ledgerIndex : Option ℕ
  transactionResult : Option JsString
  deriving DecidableEq

/-- `SubmissionJournalStage` -/
inductive SubmissionJournalStage where
  | prepared
  | signed
  | submitted
  | validated
  | expired
  | pending
  | failed
  deriving DecidableEq

/-- `SubmissionJournalEntry` -/
structure SubmissionJournalEntry where
  operationId : JsString
  /-- `at` -/
  atTime : JsString
  stage : SubmissionJournalStage
  txHash : Option JsString
  lastLedgerSequence : Option ℕ
  engineResult : Option JsString
  ledgerIndex : Option ℕ
  message : Option JsString
  deriving DecidableEq

/-- `asPositiveInteger` -/
def asPositiveInteger : JsValue → Option ℕ
  | .num n => n.toNat?.filter fun m => decide (0 < m)
  | _ => none

/-- `readString` -/
def readString (input : JsValue) (key : JsString) : Option JsString :=
  match input.get key with
  | .str s => some s
  | _ => none

/-- `readTransactionResult`; a string has no `TransactionResult` either. -/
def readTransactionResult (metadata : JsValue) : Option JsString :=
  readString metadata (js "TransactionResult")

/-- `String.prototype.includes` -/
def includesText (s pattern : JsString) : Bool :=
  s.tails.any fun rest => pattern.isPrefixOf rest

/-- `isTransactionNotFound` -/
def isTransactionNotFound (error : RpcError) : Bool :=
  error.dataError == some (js "txnNotFound")
    || error.message.any fun message => includesText message (js "txnNotFound")

/-- `getCurrentLedgerIndex` -/
def getCurrentLedgerIndex (response : RpcResponse) : Except SdkThrown ℕ :=
  match response with
  | .error error => .error (.rpc error)
  | .ok result =>
      match (asPositiveInteger (result.get (js "ledger_current_index"))).filter
          fun n => decide (n ≤ 0xffffffff) with
      | some ledgerIndex => .ok ledgerIndex
      | none => .error (.sdk (js "XCS_SDK_LEDGER_CURRENT_INVALID")
          (js "XRPL ledger_current returned an invalid ledger index."))

/-- `getTransactionStatus`, on the response to the lookup and on the response the request for the
open ledger gets when it is sent. -/
def getTransactionStatus (txHash : JsString) (lastLedgerSequence : Option ℕ)
    (lookup current : RpcResponse) : Except SdkThrown TransactionStatus :=
  if isHash txHash then
    match lookup with
    | .ok result =>
        match result.get (js "validated") with
        | .bool true =>
            .ok ⟨.validated, toUpperCase txHash, lastLedgerSequence,
              asPositiveInteger (result.get (js "ledger_index")),
              readTransactionResult (result.get (js "meta"))⟩
        | _ => .ok ⟨.pending, toUpperCase txHash, lastLedgerSequence, none, none⟩
    | .error error =>
        if isTransactionNotFound error then
          match lastLedgerSequence with
          | none => .ok ⟨.notFound, toUpperCase txHash, none, none, none⟩
          | some last =>
              match getCurrentLedgerIndex current with
              | .error error => .error error
              | .ok currentLedger =>
                  if last < currentLedger then
                    .ok ⟨.expired, toUpperCase txHash, some last, none, none⟩
                  else .ok ⟨.notFound, toUpperCase txHash, some last, none, none⟩
        else .error (.rpc error)
  else .error (.sdk (js "XCS_SDK_SUBMISSION_FAILED")
    (js "Transaction hash must be 64 hex characters."))

/-- One turn of the polling loop: the responses it gets and the clock it reads after them. -/
structure Poll where
  lookup : RpcResponse
  current : RpcResponse
  now : ℕ

/-- `waitForTransaction`, on the turns made so far; `none` while it is still waiting. -/
def waitForTransaction (txHash : JsString) (lastLedgerSequence deadline : ℕ) :
    List Poll → Option (Except SdkThrown TransactionStatus)
  | [] => none
  | poll :: polls =>
      match getTransactionStatus txHash (some lastLedgerSequence) poll.lookup poll.current with
      | .error error => some (.error error)
      | .ok status =>
          match status.status with
          | .validated => some (.ok status)
          | .expired => some (.ok status)
          | .pending =>
              if deadline ≤ poll.now then some (.ok status)
              else waitForTransaction txHash lastLedgerSequence deadline polls
          | .notFound =>
              if deadline ≤ poll.now then some (.ok { status with status := .pending })
              else waitForTransaction txHash lastLedgerSequence deadline polls

/-! ## The network -/

/-- A state of the network, as far as one transaction is concerned. -/
structure Network where
  /-- The index of the last validated ledger. -/
  validated : ℕ
  /-- The index of the open ledger. -/
  current : ℕ
  /-- The validated ledger that holds the transaction. -/
  included : Option ℕ
  validated_lt : validated < current
  current_le : current ≤ 0xffffffff
  included_le : ∀ index, included = some index → index ≤ validated

/-- What the network does next. -/
inductive NetworkEvent where
  | close
  | validate
  | validateWith

/-- The steps of the network for a transaction with a `LastLedgerSequence`: the open ledger
closes, or the next ledger is validated, without the transaction or with it. -/
inductive NetworkStep (last : ℕ) : Network → NetworkEvent → Network → Prop
  | close {n m : Network} (current : m.current = n.current + 1)
      (validated : m.validated = n.validated) (included : m.included = n.included) :
      NetworkStep last n .close m
  | validate {n m : Network} (current : m.current = n.current)
      (validated : m.validated = n.validated + 1) (included : m.included = n.included) :
      NetworkStep last n .validate m
  | validateWith {n m : Network} (current : m.current = n.current)
      (validated : m.validated = n.validated + 1) (absent : n.included = none)
      (inTime : m.validated ≤ last) (included : m.included = some m.validated) :
      NetworkStep last n .validateWith m

/-- The transaction is in no validated ledger and never will be. -/
def Network.Expired (last : ℕ) (n : Network) : Prop :=
  n.included = none ∧ ∀ tr m, Run (NetworkStep last) n tr m → m.included = none

/-- The answers to a lookup by a server with complete history: it knows a transaction that is in a
validated ledger, and it calls no other transaction validated. -/
structure Network.AnswersLookup (n : Network) (response : RpcResponse) : Prop where
  complete : n.included ≠ none →
    ∀ error, response = .error error → isTransactionNotFound error = false
  sound : n.included = none →
    ∀ result, response = .ok result → result.get (js "validated") ≠ .bool true

/-- The answers to a request for the open ledger. -/
def Network.AnswersCurrent (n : Network) (response : RpcResponse) : Prop :=
  ∀ result, response = .ok result →
    result.get (js "ledger_current_index") = .num (JsNumber.ofNat n.current)

/-- A list of polls is served along a run of the network: each lookup is answered in a state that
satisfies a condition, the network moves, and the request for the open ledger is answered. -/
inductive Served (last : ℕ) (condition : Network → Prop) : Network → List Poll → Network → Prop
  | nil (n : Network) : Served last condition n [] n
  | snoc {n₀ n n₁ n₂ : Network} {polls : List Poll} {poll : Poll} {tr tr' : List NetworkEvent} :
      Served last condition n₀ polls n → Run (NetworkStep last) n tr n₁ → condition n₁ →
      n₁.AnswersLookup poll.lookup → Run (NetworkStep last) n₁ tr' n₂ →
      n₂.AnswersCurrent poll.current → Served last condition n₀ (polls ++ [poll]) n₂

/-! ## When the verdict is `expired` -/

/-- The index the open-ledger request yields is the one the response carries. -/
theorem getCurrentLedgerIndex_ok {response : RpcResponse} {index : ℕ}
    (h : getCurrentLedgerIndex response = .ok index) :
    index ≤ 0xffffffff ∧ ∃ result, response = .ok result ∧
      asPositiveInteger (result.get (js "ledger_current_index")) = some index := by
  unfold getCurrentLedgerIndex at h
  cases response with
  | error error => cases h
  | ok result =>
      dsimp only at h
      split at h
      · rename_i index' hindex
        obtain ⟨hsome, hle⟩ := Option.filter_eq_some_iff.mp hindex
        cases h
        exact ⟨by simpa using hle, result, rfl, hsome⟩
      · cases h

/-- **What `expired` was concluded from.**  The lookup said that the transaction is unknown, and
the open ledger was past `LastLedgerSequence`. -/
theorem getTransactionStatus_expired {txHash : JsString} {last : ℕ}
    {lookup current : RpcResponse} {status : TransactionStatus}
    (h : getTransactionStatus txHash (some last) lookup current = .ok status)
    (hstatus : status.status = .expired) :
    isHash txHash = true ∧
      (∃ error, lookup = .error error ∧ isTransactionNotFound error = true) ∧
      ∃ index, getCurrentLedgerIndex current = .ok index ∧ last < index := by
  unfold getTransactionStatus at h
  split at h
  · rename_i hhash
    cases lookup with
    | ok result =>
        dsimp only at h
        split at h <;> cases h <;> cases hstatus
    | error error =>
        dsimp only at h
        split at h
        · rename_i hnotFound
          cases hcurrent : getCurrentLedgerIndex current with
          | error error => simp [hcurrent] at h
          | ok index =>
              simp only [hcurrent] at h
              split at h
              · rename_i hlt
                exact ⟨hhash, ⟨error, rfl, hnotFound⟩, index, rfl, hlt⟩
              · cases h
                cases hstatus
        · cases h
  · cases h

/-- A wait that ends with `expired` repeats the verdict of its last poll. -/
theorem waitForTransaction_expired {txHash : JsString} {last deadline : ℕ} {poll : Poll} :
    ∀ {polls : List Poll} {status : TransactionStatus},
      waitForTransaction txHash last deadline polls = none →
      waitForTransaction txHash last deadline (polls ++ [poll]) = some (.ok status) →
      status.status = .expired →
      getTransactionStatus txHash (some last) poll.lookup poll.current = .ok status := by
  intro polls
  induction polls with
  | nil =>
      intro status _ h hstatus
      rw [List.nil_append, waitForTransaction] at h
      split at h
      · cases h
      · rename_i status' hget
        split at h
        · cases h
          exact hget
        · cases h
          exact hget
        · split at h
          · cases h
            exact hget
          · cases h
        · split at h
          · cases h
            cases hstatus
          · cases h
  | cons p polls ih =>
      intro status hnone h hstatus
      rw [waitForTransaction] at hnone
      rw [List.cons_append, waitForTransaction] at h
      split at hnone
      · cases hnone
      · rename_i status' hget
        simp only [hget] at h
        split at hnone <;> rename_i hkind <;> simp only [hkind] at h
        · cases hnone
        · cases hnone
        · split at hnone
          · cases hnone
          · rename_i hdeadline
            rw [if_neg hdeadline] at h
            exact ih hnone h hstatus
        · split at hnone
          · cases hnone
          · rename_i hdeadline
            rw [if_neg hdeadline] at h
            exact ih hnone h hstatus

/-! ## When the verdict is final -/

/-- Once the ledger `LastLedgerSequence` is validated, a transaction outside stays outside. -/
theorem absent_of_run {last : ℕ} {n m : Network} {tr : List NetworkEvent}
    (hrun : Run (NetworkStep last) n tr m) (habsent : n.included = none)
    (hlast : last ≤ n.validated) : m.included = none ∧ last ≤ m.validated := by
  refine hrun.invariant (P := fun m => m.included = none ∧ last ≤ m.validated) ?_
    ⟨habsent, hlast⟩
  rintro t e u ⟨hnone, hle⟩ hstep
  cases hstep with
  | close current validated included => exact ⟨included.trans hnone, validated ▸ hle⟩
  | validate current validated included => exact ⟨included.trans hnone, by omega⟩
  | validateWith current validated absent inTime included => omega

theorem expired_of_run {last : ℕ} {n m : Network} {tr : List NetworkEvent}
    (hrun : Run (NetworkStep last) n tr m) (habsent : n.included = none)
    (hlast : last ≤ n.validated) : m.Expired last := by
  obtain ⟨hnone, hle⟩ := absent_of_run hrun habsent hlast
  exact ⟨hnone, fun _ _ hrun' => (absent_of_run hrun' hnone hle).1⟩

/-- The states of the network in which a lookup settles the matter: the last ledger that could
take the transaction is validated, or the transaction is in a validated ledger already. -/
def Network.Settled (last : ℕ) (n : Network) : Prop :=
  last ≤ n.validated ∨ n.included ≠ none

/-- From a settled state an `expired` verdict is final. -/
theorem expired_of_settled {last : ℕ} {n₁ n₂ : Network} {tr : List NetworkEvent}
    {txHash : JsString} {lookup current : RpcResponse} {status : TransactionStatus}
    (hsettled : n₁.Settled last) (hrun : Run (NetworkStep last) n₁ tr n₂)
    (hlookup : n₁.AnswersLookup lookup)
    (hget : getTransactionStatus txHash (some last) lookup current = .ok status)
    (hstatus : status.status = .expired) : n₂.Expired last := by
  obtain ⟨-, ⟨error, rfl, hnotFound⟩, -⟩ := getTransactionStatus_expired hget hstatus
  have habsent : n₁.included = none := by
    by_contra hincluded
    rw [hlookup.complete hincluded error rfl] at hnotFound
    cases hnotFound
  rcases hsettled with hlast | hincluded
  · exact expired_of_run hrun habsent hlast
  · exact absurd habsent hincluded

/-- Ledgers may close before any further ledger is validated. -/
theorem exists_run_close {last : ℕ} (n : Network) (k : ℕ) (h : n.current + k ≤ 0xffffffff) :
    ∃ tr m, Run (NetworkStep last) n tr m ∧ m.current = n.current + k ∧
      m.validated = n.validated ∧ m.included = n.included := by
  induction k with
  | zero => exact ⟨[], n, .nil n, rfl, rfl, rfl⟩
  | succ k ih =>
      obtain ⟨tr, m, hrun, hcurrent, hvalidated, hincluded⟩ := ih (by omega)
      have hlt := m.validated_lt
      refine ⟨_, ⟨m.validated, m.current + 1, m.included, by omega, by omega, m.included_le⟩,
        hrun.snoc (.close rfl rfl rfl), ?_, hvalidated, hincluded⟩
      change m.current + 1 = n.current + (k + 1)
      omega

/-- The answer of a server that does not know the transaction. -/
def notFoundResponse : RpcResponse :=
  .error ⟨some (js "txnNotFound"), none⟩

/-- The answer to a request for the open ledger. -/
def currentResponse (index : ℕ) : RpcResponse :=
  .ok (.obj [(js "ledger_current_index", .num (JsNumber.ofNat index))])

theorem getCurrentLedgerIndex_currentResponse {index : ℕ} (hpos : 0 < index)
    (hle : index ≤ 0xffffffff) : getCurrentLedgerIndex (currentResponse index) = .ok index := by
  have hget : (JsValue.obj [(js "ledger_current_index", .num (JsNumber.ofNat index))]).get
      (js "ledger_current_index") = .num (JsNumber.ofNat index) := by
    simp [JsValue.get_obj]
  have hnat : (JsNumber.ofNat index).toNat? = some index :=
    JsNumber.toNat?_ofNat (hle.trans (by norm_num))
  unfold getCurrentLedgerIndex currentResponse
  simp [hget, asPositiveInteger, hnat, Option.filter, hpos, hle]

/-- The verdict on an unknown transaction once the open ledger is past `LastLedgerSequence`. -/
theorem getTransactionStatus_notFoundResponse {txHash : JsString} {last index : ℕ}
    (hhash : isHash txHash = true) (hlt : last < index) (hle : index ≤ 0xffffffff) :
    getTransactionStatus txHash (some last) notFoundResponse (currentResponse index)
      = .ok ⟨.expired, toUpperCase txHash, some last, none, none⟩ := by
  have hnotFound : isTransactionNotFound ⟨some (js "txnNotFound"), none⟩ = true := rfl
  have hcurrent := getCurrentLedgerIndex_currentResponse (by omega : 0 < index) hle
  unfold getTransactionStatus notFoundResponse
  simp only [hhash, hnotFound, if_true, hcurrent, hlt]

theorem answersLookup_notFoundResponse {n : Network} (h : n.included = none) :
    n.AnswersLookup notFoundResponse where
  complete hincluded := absurd h hincluded
  sound _ result hresult := by cases hresult

theorem answersCurrent_currentResponse (n : Network) :
    n.AnswersCurrent (currentResponse n.current) := by
  intro result hresult
  cases hresult
  simp [JsValue.get_obj]

/-- From an unsettled state the transaction can make it into its last possible ledger between the
two requests, while the open ledger passes `LastLedgerSequence`. -/
theorem exists_race {last : ℕ} {n : Network} (hsettled : ¬n.Settled last)
    (hlast : last < 0xffffffff) :
    ∃ tr m, Run (NetworkStep last) n tr m ∧ last < m.current ∧ m.included ≠ none := by
  rw [Network.Settled, not_or, not_le, not_not] at hsettled
  obtain ⟨hvalidated, habsent⟩ := hsettled
  have hcurrent := n.current_le
  obtain ⟨tr, m, hrun, hm, hv, hi⟩ :=
    @exists_run_close last n (last + 1 - n.current) (by omega)
  have hlt : n.validated + 1 < m.current := by omega
  refine ⟨_, ⟨n.validated + 1, m.current, some (n.validated + 1), hlt, m.current_le, ?_⟩,
    hrun.snoc (.validateWith rfl (by rw [hv]) (hi.trans habsent) hvalidated rfl), ?_, ?_⟩
  · intro index hindex
    cases hindex
    exact le_rfl
  · change last < m.current
    omega
  · simp

/-- **The verdict races with validation.**  Ledger 50 is open and the server has not seen the
transaction when it answers the lookup.  Before it answers the second request the ledger closes
with the transaction in it and is validated; the open ledger is 51, past `LastLedgerSequence` 50,
and the verdict on a transaction in a validated ledger is `expired`. -/
theorem expired_verdict_race :
    ∃ (n₁ n₂ : Network) (tr : List NetworkEvent) (lookup current : RpcResponse)
      (status : TransactionStatus),
      Run (NetworkStep 50) n₁ tr n₂ ∧ n₁.AnswersLookup lookup ∧ n₂.AnswersCurrent current ∧
      getTransactionStatus (List.replicate 64 0x41) (some 50) lookup current = .ok status ∧
      status.status = .expired ∧ n₂.included = some 50 := by
  refine ⟨⟨49, 50, none, by decide, by decide, by simp⟩,
    ⟨50, 51, some 50, by decide, by decide, by simp⟩, [.close, .validateWith], notFoundResponse,
    currentResponse 51, _, ?_, answersLookup_notFoundResponse rfl,
    answersCurrent_currentResponse _,
    getTransactionStatus_notFoundResponse (by decide) (by decide) (by decide), rfl, rfl⟩
  have close : NetworkStep 50 ⟨49, 50, none, by decide, by decide, by simp⟩ .close
      ⟨49, 51, none, by decide, by decide, by simp⟩ := .close rfl rfl rfl
  have validate : NetworkStep 50 ⟨49, 51, none, by decide, by decide, by simp⟩ .validateWith
      ⟨50, 51, some 50, by decide, by decide, by simp⟩ :=
    .validateWith rfl rfl rfl (by decide) rfl
  exact (Run.single close).snoc validate

/-- **When an `expired` verdict is final.**

* For one call, whatever happens between its two requests: the verdict is final from a state of
  the network exactly when that state is settled at the lookup, or no verdict can be given at all,
  since the hash is malformed or the open ledger cannot pass `LastLedgerSequence`.
* For a polling client: when every lookup is answered in such a state, the verdict the last poll
  ends the wait with is final. -/
theorem expired_verdict_final_iff (txHash : JsString) (last : ℕ) :
    (∀ n₁ : Network,
      (∀ tr n₂ lookup current status, Run (NetworkStep last) n₁ tr n₂ →
        n₁.AnswersLookup lookup → n₂.AnswersCurrent current →
        getTransactionStatus txHash (some last) lookup current = .ok status →
        status.status = .expired → n₂.Expired last) ↔
      n₁.Settled last ∨ isHash txHash = false ∨ 0xffffffff ≤ last) ∧
    ∀ deadline polls poll n₀ n status,
      Served last (Network.Settled last) n₀ (polls ++ [poll]) n →
      waitForTransaction txHash last deadline polls = none →
      waitForTransaction txHash last deadline (polls ++ [poll]) = some (.ok status) →
      status.status = .expired → n.Expired last := by
  constructor
  · intro n₁
    constructor
    · intro hfinal
      by_contra hcon
      simp only [not_or, not_le, Bool.not_eq_false] at hcon
      obtain ⟨hsettled, hhash, hlast⟩ := hcon
      obtain ⟨tr, m, hrun, hlt, hincluded⟩ := exists_race hsettled hlast
      have habsent : n₁.included = none := by
        rw [Network.Settled, not_or, not_not] at hsettled
        exact hsettled.2
      have hget := getTransactionStatus_notFoundResponse hhash hlt m.current_le
      have hexpired := hfinal tr m _ _ _ hrun (answersLookup_notFoundResponse habsent)
        (answersCurrent_currentResponse m) hget rfl
      exact hincluded hexpired.1
    · rintro (hsettled | hhash | hlast) tr n₂ lookup current status hrun hlookup hcurrent hget
        hstatus
      · exact expired_of_settled hsettled hrun hlookup hget hstatus
      · obtain ⟨hhash', -⟩ := getTransactionStatus_expired hget hstatus
        rw [hhash] at hhash'
        cases hhash'
      · obtain ⟨-, -, index, hindex, hlt⟩ := getTransactionStatus_expired hget hstatus
        have hle := (getCurrentLedgerIndex_ok hindex).1
        omega
  · intro deadline polls poll n₀ n status hserved hnone hwait hstatus
    have hget := waitForTransaction_expired hnone hwait hstatus
    generalize hpolls : polls ++ [poll] = ps at hserved
    cases hserved with
    | nil => simp at hpolls
    | snoc hserved hrun hsettled hlookup hrun' hcurrent =>
        obtain ⟨rfl, hpoll⟩ := List.append_inj' hpolls rfl
        obtain rfl := List.singleton_inj.mp hpoll
        exact expired_of_settled hsettled hrun' hlookup hget hstatus

end Sdk
end Xcs
