import Xcs.Core.Claims
import Xcs.Indexer.ProjectLedger
import Xcs.Indexer.SourceResponse

/-!
# Ledger responses

`normalizeLedgerResponse` turns what a ledger server answered into a `ValidatedLedger`.  Servers
give the transactions of a ledger in any order, and each in one of three envelopes: with its fields
beside `metaData`, or with its fields in an object of their own, `tx_json` or `tx`, beside `meta`.

* `Presents` says that a value is an envelope around given fields, metadata and hash;
  `normalizeTransaction_of_presents` that the three envelopes are read alike.
* `normalizeLedgerResponse_rearranged`: the ledger returned does not depend on the order or on the
  envelopes, and its transactions are numbered from zero and have hashes of their own.
-/

namespace Xcs
namespace Indexer

open Js Json Core

namespace XrplSource

/-! ## The functions -/

/-- `asRecord` -/
def asRecord (value : JsValue) (label : JsString) : Except Thrown Members :=
  readRecord value label

/-- `uint` -/
def uint (value : JsValue) (label : JsString) : Except Thrown ℕ :=
  readUint32 value label

/-- `hash` -/
def hash (value : JsValue) (label : JsString) : Except Thrown JsString :=
  readHash value label

/-- `uint64String` -/
def uint64String (value : JsValue) (label : JsString) : Except Thrown JsString :=
  match value with
  | .str s =>
      if isUnsignedInteger s && decide (bigNat s ≤ 0xffffffffffffffff) then .ok s
      else responseInvalid (label ++ js " must be a canonical uint64 string")
  | _ => responseInvalid (label ++ js " must be a canonical uint64 string")

/-- `matchingHash` -/
def matchingHash (values : List JsValue) (label : JsString) : Except Thrown JsString := do
  let normalized ← (values.filter fun value => !value.isUndefined).mapM fun value =>
    hash value label
  match normalized with
  | [] => hash .undefined label
  | first :: _ =>
      if normalized.any (· != first) then
        responseInvalid (label ++ js " values disagree inside one response")
      else .ok first

/-- `nonEmptyString` -/
def nonEmptyString (value : JsValue) (label : JsString) : Except Thrown JsString :=
  match value with
  | .str s =>
      if (trim s).isEmpty then responseInvalid (label ++ js " must be a non-empty string")
      else .ok s
  | _ => responseInvalid (label ++ js " must be a non-empty string")

/-- `a ?? b` -/
def nullish (a b : JsValue) : JsValue :=
  if a.isUndefined || a.isNull then b else a

/-- The transaction inside an envelope; `none` where the envelope is the transaction itself. -/
def innerTransaction (envelope : JsValue) : Except Thrown (Option Members) :=
  if (envelope.get (js "tx_json")).isObject then do
    let members ← asRecord (envelope.get (js "tx_json")) (js "tx_json")
    pure (some members)
  else if (envelope.get (js "tx")).isObject then do
    let members ← asRecord (envelope.get (js "tx")) (js "tx")
    pure (some members)
  else pure none

/-- The members that are deleted from the copy of a transaction. -/
def deletedMembers : List JsString :=
  [js "meta", js "metaData", js "hash"]

/-- `{ ...transaction }` without the deleted members. -/
def cleanTransaction (members : Members) : Members :=
  members.filter fun m => !deletedMembers.contains m.1

/-- `normalizeTransaction` -/
def normalizeTransaction (value : JsValue) : Except Thrown LedgerTransaction := do
  let members ← asRecord value (js "expanded ledger transaction")
  let envelope := JsValue.obj members
  let inner ← innerTransaction envelope
  let transaction := JsValue.obj (inner.getD members)
  let metadata ← asRecord
    (nullish (envelope.get (js "meta")) (nullish (envelope.get (js "metaData"))
      (nullish (transaction.get (js "meta")) (transaction.get (js "metaData")))))
    (js "transaction metadata")
  let _ ← nonEmptyString (transaction.get (js "TransactionType"))
    (js "transaction.TransactionType")
  let _ ← readItems ((JsValue.obj metadata).get (js "AffectedNodes"))
    (js "metadata.AffectedNodes must be an array")
  let _ ← nonEmptyString ((JsValue.obj metadata).get (js "TransactionResult"))
    (js "metadata.TransactionResult")
  let transactionHash ← matchingHash
    [envelope.get (js "hash"),
      if inner.isNone then .undefined else transaction.get (js "hash")]
    (js "transaction hash")
  let transactionIndex ← uint ((JsValue.obj metadata).get (js "TransactionIndex"))
    (js "metadata.TransactionIndex")
  pure { hash := transactionHash
         transaction := .obj (cleanTransaction (inner.getD members))
         metadata := .obj metadata
         transactionIndex }

/-- `sort((left, right) => left.transactionIndex - right.transactionIndex)` -/
def sortTransactions (transactions : List LedgerTransaction) : List LedgerTransaction :=
  transactions.insertionSort fun left right => left.transactionIndex ≤ right.transactionIndex

/-- The loop over the transactions in order, with the hashes seen so far. -/
def checkTransactions : ℕ → List JsString → List LedgerTransaction → Except Thrown Unit
  | _, _, [] => .ok ()
  | position, hashes, transaction :: transactions => do
      ensure (transaction.transactionIndex == position) (.source .responseInvalid
        (js "Validated ledger is missing transaction index " ++ natToString position))
      ensure (!hashes.contains transaction.hash) (.source .responseInvalid
        (js "Validated ledger contains duplicate transaction hash " ++ transaction.hash))
      checkTransactions (position + 1) (transaction.hash :: hashes) transactions

/-- The part of `normalizeLedgerResponse` that reads the transactions. -/
def readTransactions (items : List JsValue) : Except Thrown (List LedgerTransaction) := do
  let normalized ← items.mapM normalizeTransaction
  let transactions := sortTransactions normalized
  checkTransactions 0 [] transactions
  pure transactions

/-- The part of `normalizeLedgerResponse` behind it, which reads the header.  A zero that the answer
writes with a sign loses it here. -/
def readHeader (result ledger : JsValue) (transactions : List LedgerTransaction) :
    Except Thrown SourceLedger := do
  let ledgerIndex ← uint (ledger.get (js "ledger_index")) (js "ledger.ledger_index")
  let responseLedgerIndex ← uint (result.get (js "ledger_index"))
    (js "ledger response ledger_index")
  ensure (ledgerIndex == responseLedgerIndex) (.source .responseInvalid
    (js "Ledger index values disagree inside one response"))
  let ledgerHash ← hash (ledger.get (js "ledger_hash")) (js "ledger.ledger_hash")
  let responseLedgerHash ← hash (result.get (js "ledger_hash"))
    (js "ledger response ledger_hash")
  ensure (ledgerHash == responseLedgerHash) (.source .responseInvalid
    (js "Ledger hash values disagree inside one response"))
  let parentHash ← hash (ledger.get (js "parent_hash")) (js "ledger.parent_hash")
  let accountRoot ← hash (ledger.get (js "account_hash")) (js "ledger.account_hash")
  let transactionRoot ← hash (ledger.get (js "transaction_hash")) (js "ledger.transaction_hash")
  let parentCloseTime ← uint (ledger.get (js "parent_close_time"))
    (js "ledger.parent_close_time")
  let closeTime ← uint (ledger.get (js "close_time")) (js "ledger.close_time")
  let closeTimeResolution ← uint (ledger.get (js "close_time_resolution"))
    (js "ledger.close_time_resolution")
  let closeFlags ← uint (ledger.get (js "close_flags")) (js "ledger.close_flags")
  let totalCoins ← uint64String (ledger.get (js "total_coins")) (js "ledger.total_coins")
  pure { ledgerIndex, ledgerHash, parentHash, transactionRoot, closeTime, transactions, accountRoot,
         parentCloseTime, closeTimeResolution, closeFlags, totalCoins }

/-- `value === true` -/
def isTrue (value : JsValue) : Bool :=
  match value with
  | .bool b => b
  | _ => false

theorem isTrue_iff {value : JsValue} : isTrue value = true ↔ value = .bool true := by
  cases value <;> simp [isTrue]

/-- `normalizeLedgerResponse` -/
def normalizeLedgerResponse (value : JsValue) : Except Thrown SourceLedger := do
  let members ← asRecord value (js "ledger response")
  let result := JsValue.obj members
  ensure (isTrue (result.get (js "validated"))) (.source .responseInvalid
    (js "XRPL server returned a non-validated ledger"))
  let ledgerMembers ← asRecord (result.get (js "ledger")) (js "ledger")
  let ledger := JsValue.obj ledgerMembers
  ensure (isTrue (ledger.get (js "closed"))) (.source .responseInvalid
    (js "Validated ledger must be marked closed"))
  let items ← readItems (ledger.get (js "transactions"))
    (js "Expanded validated ledger must contain a transactions array")
  let transactions ← readTransactions items
  readHeader result ledger transactions

/-! ## Envelopes -/

/-- A hash in an envelope and in the object inside it: in one of the two, or in both. -/
inductive GivesHash (hashValue : JsValue) : JsValue → JsValue → Prop
  | outside : GivesHash hashValue hashValue .undefined
  | inside : GivesHash hashValue .undefined hashValue
  | both : GivesHash hashValue hashValue hashValue

/-- A value is a transaction in one of the envelopes servers use: fields, metadata and a hash. -/
inductive Presents (fields : Members) (metadata hashValue : JsValue) : JsValue → Prop
  | flat {members : Members} :
      ((JsValue.obj members).get (js "tx_json")).isObject = false →
      ((JsValue.obj members).get (js "tx")).isObject = false →
      (JsValue.obj members).get (js "meta") = .undefined →
      (JsValue.obj members).get (js "metaData") = metadata →
      (JsValue.obj members).get (js "hash") = hashValue →
      cleanTransaction members = fields →
      Presents fields metadata hashValue (.obj members)
  | txJson {members inner : Members} :
      (JsValue.obj members).get (js "tx_json") = .obj inner →
      (JsValue.obj members).get (js "meta") = metadata →
      (JsValue.obj members).get (js "metaData") = .undefined →
      (JsValue.obj inner).get (js "meta") = .undefined →
      (JsValue.obj inner).get (js "metaData") = .undefined →
      GivesHash hashValue ((JsValue.obj members).get (js "hash"))
        ((JsValue.obj inner).get (js "hash")) →
      cleanTransaction inner = fields →
      Presents fields metadata hashValue (.obj members)
  | tx {members inner : Members} :
      ((JsValue.obj members).get (js "tx_json")).isObject = false →
      (JsValue.obj members).get (js "tx") = .obj inner →
      (JsValue.obj members).get (js "meta") = metadata →
      (JsValue.obj members).get (js "metaData") = .undefined →
      (JsValue.obj inner).get (js "meta") = .undefined →
      (JsValue.obj inner).get (js "metaData") = .undefined →
      GivesHash hashValue ((JsValue.obj members).get (js "hash"))
        ((JsValue.obj inner).get (js "hash")) →
      cleanTransaction inner = fields →
      Presents fields metadata hashValue (.obj members)

/-- Two values are the same, or the same transaction in two envelopes. -/
def SameTransaction (v w : JsValue) : Prop :=
  v = w ∨ ∃ fields metadata hashValue,
    Presents fields metadata hashValue v ∧ Presents fields metadata hashValue w

/-- Two lists of transactions: the same ones, in any order and in any envelopes. -/
def SameTransactions (items items' : List JsValue) : Prop :=
  ∃ ordered : List JsValue, items.Perm ordered ∧ List.Forall₂ SameTransaction ordered items'

/-- Two responses that differ in nothing but the order and the envelopes of the transactions. -/
structure Rearranged (members members' : Members) : Prop where
  result : ∀ key, key ≠ js "ledger" →
    (JsValue.obj members).get key = (JsValue.obj members').get key
  ledger : ∃ ledger ledger' items items', (JsValue.obj members).get (js "ledger") = .obj ledger ∧
    (JsValue.obj members').get (js "ledger") = .obj ledger' ∧
    (∀ key, key ≠ js "transactions" →
      (JsValue.obj ledger).get key = (JsValue.obj ledger').get key) ∧
    (JsValue.obj ledger).get (js "transactions") = .arr items ∧
    (JsValue.obj ledger').get (js "transactions") = .arr items' ∧
    SameTransactions items items'

/-- A member that is not deleted is read from the copy. -/
theorem get_cleanTransaction {key : JsString} (h : key ∉ deletedMembers) (members : Members) :
    (JsValue.obj (cleanTransaction members)).get key = (JsValue.obj members).get key := by
  have hlookup : (cleanTransaction members).lookup key = members.lookup key := by
    induction members with
    | nil => rfl
    | cons m members ih =>
        rw [cleanTransaction] at ih ⊢
        by_cases hkey : key = m.1
        · subst hkey
          rw [List.filter_cons_of_pos (by simpa using h), List.lookup_cons, List.lookup_cons,
            beq_self_eq_true]
        · by_cases hm : m.1 ∈ deletedMembers
          · rw [List.filter_cons_of_neg (by simpa using hm), ih, List.lookup_cons,
              beq_false_of_ne hkey]
          · rw [List.filter_cons_of_pos (by simpa using hm), List.lookup_cons, List.lookup_cons,
              beq_false_of_ne hkey, ih]
  rw [JsValue.get_obj, JsValue.get_obj, hlookup]

theorem nullish_undefined (a : JsValue) : nullish .undefined a = a := rfl

theorem nullish_self (a : JsValue) : nullish a a = a := ite_self a

/-- Where nothing else is there, `null` and nothing are refused alike. -/
theorem asRecord_nullish (a : JsValue) (label : JsString) :
    asRecord (nullish a .undefined) label = asRecord a label := by
  cases a <;> rfl

/-- The readings of one value, once or twice, agree. -/
theorem matchingHash_replicate {v : JsValue} (n : ℕ) (values : List JsValue) (label : JsString)
    (hvalues : values.filter (fun value => !value.isUndefined) = v :: List.replicate n v) :
    matchingHash values label = hash v label := by
  rw [matchingHash, hvalues]
  cases hv : hash v label with
  | error e =>
    rw [List.mapM_cons, hv]
    rfl
  | ok a =>
    have hall : (v :: List.replicate n v).mapM (fun value => hash value label)
        = .ok (a :: List.replicate n a) := by
      rw [mapM_eq_ok, ← List.replicate_succ, ← List.replicate_succ]
      exact List.forall₂_iff_get.mpr ⟨by simp, fun i hi hi' => by simpa using hv⟩
    rw [hall]
    have hsame : ((a :: List.replicate n a).any (· != a)) = false := by
      simp
    show (if _ = true then _ else _) = _
    rw [hsame]
    rfl

/-- A hash that is given in one place, or twice, is read as it is. -/
theorem matchingHash_of_givesHash {hashValue outer inner : JsValue} (label : JsString)
    (h : GivesHash hashValue outer inner) :
    matchingHash [outer, inner] label = hash hashValue label := by
  by_cases hundefined : hashValue.isUndefined = true
  · rw [JsValue.isUndefined_iff] at hundefined
    subst hundefined
    cases h <;> rfl
  · have hgiven : hashValue.isUndefined = false := by simpa using hundefined
    have hnothing : JsValue.undefined.isUndefined = true := rfl
    cases h with
    | outside => exact matchingHash_replicate 0 _ label (by simp [hgiven, hnothing])
    | inside => exact matchingHash_replicate 0 _ label (by simp [hgiven, hnothing])
    | both => exact matchingHash_replicate 1 _ label (by simp [hgiven])

/-- What is made of a transaction, whatever its envelope. -/
def presented (fields : Members) (metadata hashValue : JsValue) :
    Except Thrown LedgerTransaction := do
  let metadata ← asRecord metadata (js "transaction metadata")
  let _ ← nonEmptyString ((JsValue.obj fields).get (js "TransactionType"))
    (js "transaction.TransactionType")
  let _ ← readItems ((JsValue.obj metadata).get (js "AffectedNodes"))
    (js "metadata.AffectedNodes must be an array")
  let _ ← nonEmptyString ((JsValue.obj metadata).get (js "TransactionResult"))
    (js "metadata.TransactionResult")
  let transactionHash ← hash hashValue (js "transaction hash")
  let transactionIndex ← uint ((JsValue.obj metadata).get (js "TransactionIndex"))
    (js "metadata.TransactionIndex")
  pure { hash := transactionHash
         transaction := .obj fields
         metadata := .obj metadata
         transactionIndex }

theorem asRecord_obj (members : Members) (label : JsString) :
    asRecord (.obj members) label = .ok members := rfl

/-- What is read of an envelope: its metadata, its hash and the fields without them. -/
theorem normalizeTransaction_eq_presented {members fields : Members} {inner : Option Members}
    {metadata hashValue : JsValue} (hinner : innerTransaction (.obj members) = .ok inner)
    (hmetadata : ∀ label, asRecord (nullish ((JsValue.obj members).get (js "meta"))
        (nullish ((JsValue.obj members).get (js "metaData"))
          (nullish ((JsValue.obj (inner.getD members)).get (js "meta"))
            ((JsValue.obj (inner.getD members)).get (js "metaData"))))) label
      = asRecord metadata label)
    (hhash : ∀ label, matchingHash [(JsValue.obj members).get (js "hash"),
        if inner.isNone then .undefined
        else (JsValue.obj (inner.getD members)).get (js "hash")] label
      = hash hashValue label)
    (hclean : cleanTransaction (inner.getD members) = fields) :
    normalizeTransaction (.obj members) = presented fields metadata hashValue := by
  have htype : (JsValue.obj (inner.getD members)).get (js "TransactionType")
      = (JsValue.obj fields).get (js "TransactionType") := by
    rw [← hclean, get_cleanTransaction (by decide)]
  simp only [normalizeTransaction, presented, asRecord_obj, bind, Except.bind, hinner, hmetadata,
    hhash, hclean, htype]

/-- The three envelopes are read alike. -/
theorem normalizeTransaction_of_presents {fields : Members} {metadata hashValue value : JsValue}
    (h : Presents fields metadata hashValue value) :
    normalizeTransaction value = presented fields metadata hashValue := by
  cases h with
  | flat htxJson htx hmeta hmetadata hhash hclean =>
    rename_i members
    have hinner : innerTransaction (.obj members) = .ok none := by
      simp [innerTransaction, htxJson, htx, pure, Except.pure]
    refine normalizeTransaction_eq_presented hinner (fun label => ?_) (fun label => ?_) hclean
    · rw [Option.getD_none, hmeta, hmetadata, nullish_undefined, nullish_undefined, nullish_self]
    · rw [hhash]
      exact matchingHash_of_givesHash label .outside
  | txJson htxJson hmeta hmetaData hinnerMeta hinnerMetaData hhash hclean =>
    rename_i members inner
    have hobject : (JsValue.obj inner).isObject = true := rfl
    have hinner : innerTransaction (.obj members) = .ok (some inner) := by
      simp [innerTransaction, htxJson, hobject, asRecord_obj, pure, Except.pure]
    refine normalizeTransaction_eq_presented hinner (fun label => ?_) (fun label => ?_) hclean
    · rw [Option.getD_some, hmeta, hmetaData, hinnerMeta, hinnerMetaData]
      exact asRecord_nullish metadata label
    · exact matchingHash_of_givesHash label hhash
  | tx htxJson htx hmeta hmetaData hinnerMeta hinnerMetaData hhash hclean =>
    rename_i members inner
    have hobject : (JsValue.obj inner).isObject = true := rfl
    have hinner : innerTransaction (.obj members) = .ok (some inner) := by
      simp [innerTransaction, htxJson, htx, hobject, asRecord_obj, pure, Except.pure]
    refine normalizeTransaction_eq_presented hinner (fun label => ?_) (fun label => ?_) hclean
    · rw [Option.getD_some, hmeta, hmetaData, hinnerMeta, hinnerMetaData]
      exact asRecord_nullish metadata label
    · exact matchingHash_of_givesHash label hhash

theorem SameTransaction.normalizeTransaction_eq {v w : JsValue} (h : SameTransaction v w) :
    normalizeTransaction v = normalizeTransaction w := by
  rcases h with rfl | ⟨fields, metadata, hashValue, hv, hw⟩
  · rfl
  · rw [normalizeTransaction_of_presents hv, normalizeTransaction_of_presents hw]

/-! ## Order -/

/-- What the loop checks: the transactions are numbered, and their hashes are new. -/
theorem checkTransactions_eq_ok {u : Unit} {position : ℕ} {hashes : List JsString}
    {transactions : List LedgerTransaction} :
    checkTransactions position hashes transactions = .ok u ↔
      transactions.map (·.transactionIndex) = List.range' position transactions.length ∧
        (transactions.map (·.hash)).Nodup ∧ ∀ tx ∈ transactions, tx.hash ∉ hashes := by
  induction transactions generalizing position hashes with
  | nil => simp [checkTransactions]
  | cons tx transactions ih =>
    simp only [checkTransactions, bind_eq_ok, ensure_eq_ok, exists_const, beq_iff_eq, ih,
      List.map_cons, List.length_cons, List.range'_succ, List.cons.injEq, List.nodup_cons,
      forall_eq_or_imp, List.mem_map, List.mem_cons, Bool.not_eq_true',
      List.contains_eq_mem, decide_eq_false_iff_not, not_or, not_exists, not_and]
    constructor
    · rintro ⟨hindex, hnew, hrest, hnodup, hall⟩
      exact ⟨⟨hindex, hrest⟩, ⟨fun t ht heq => (hall t ht).1 heq, hnodup⟩, hnew,
        fun t ht => (hall t ht).2⟩
    · rintro ⟨⟨hindex, hrest⟩, ⟨hdiffer, hnodup⟩, hnew, hall⟩
      exact ⟨hindex, hnew, hrest, hnodup, fun t ht => ⟨hdiffer t ht, hall t ht⟩⟩

theorem readTransactions_eq_ok {items : List JsValue} {transactions : List LedgerTransaction} :
    readTransactions items = .ok transactions ↔ ∃ normalized,
      items.mapM normalizeTransaction = .ok normalized ∧
        transactions = sortTransactions normalized ∧
        transactions.map (·.transactionIndex) = List.range' 0 transactions.length ∧
        (transactions.map (·.hash)).Nodup := by
  simp only [readTransactions, bind_eq_ok, checkTransactions_eq_ok, exists_const, pure_eq_ok']
  constructor
  · rintro ⟨normalized, hall, hchecked, rfl⟩
    exact ⟨normalized, hall, rfl, hchecked.1, hchecked.2.1⟩
  · rintro ⟨normalized, hall, rfl, hindices, hhashes⟩
    exact ⟨normalized, hall, ⟨hindices, hhashes, fun _ _ => List.not_mem_nil⟩, rfl⟩

/-- Transactions that are numbered have one order. -/
theorem sortTransactions_eq_of_perm {xs ys : List LedgerTransaction} (hperm : xs.Perm ys)
    (hindices : (sortTransactions xs).map (·.transactionIndex)
      = List.range' 0 (sortTransactions xs).length) :
    sortTransactions ys = sortTransactions xs := by
  have hxs : (sortTransactions xs).Perm xs := List.perm_insertionSort _ xs
  have hys : (sortTransactions ys).Perm ys := List.perm_insertionSort _ ys
  have hsorted : ∀ zs : List LedgerTransaction, (sortTransactions zs).Pairwise
      fun a b => a.transactionIndex ≤ b.transactionIndex := fun zs =>
        List.pairwise_insertionSort _ zs
  have hnodup : ((sortTransactions xs).map (·.transactionIndex)).Nodup := by
    rw [hindices]
    exact List.nodup_range'
  refine List.Perm.eq_of_pairwise (fun a b ha hb hab hba => ?_) (hsorted ys) (hsorted xs)
    (hys.trans (hperm.symm.trans hxs.symm))
  have ha : a ∈ sortTransactions xs := (hxs.trans (hperm.trans hys.symm)).mem_iff.mpr ha
  exact List.inj_on_of_nodup_map hnodup ha hb (Nat.le_antisymm hab hba)

/-- Reading the same transactions in another order gives what was read, in another order. -/
theorem mapM_perm {items items' : List JsValue} (hperm : items.Perm items')
    {normalized : List LedgerTransaction}
    (h : items.mapM normalizeTransaction = .ok normalized) :
    ∃ normalized', normalized.Perm normalized' ∧
      items'.mapM normalizeTransaction = .ok normalized' := by
  obtain ⟨normalized', hall, hperm'⟩ := List.perm_comp_forall₂ hperm.symm (mapM_eq_ok.mp h)
  exact ⟨normalized', hperm'.symm, mapM_eq_ok.mpr hall⟩

theorem mapM_same {items items' : List JsValue} (h : List.Forall₂ SameTransaction items items') :
    items.mapM normalizeTransaction = items'.mapM normalizeTransaction := by
  induction h with
  | nil => rfl
  | cons hfirst _ ih => rw [List.mapM_cons, List.mapM_cons, hfirst.normalizeTransaction_eq, ih]

theorem readTransactions_perm {items items' : List JsValue} (hperm : items.Perm items')
    {transactions : List LedgerTransaction} (h : readTransactions items = .ok transactions) :
    readTransactions items' = .ok transactions := by
  obtain ⟨normalized, hall, rfl, hindices, hhashes⟩ := readTransactions_eq_ok.mp h
  obtain ⟨normalized', hperm', hall'⟩ := mapM_perm hperm hall
  have hsort := sortTransactions_eq_of_perm hperm' hindices
  exact readTransactions_eq_ok.mpr ⟨normalized', hall', hsort.symm, hindices, hhashes⟩

/-- The order and the envelopes of the transactions make no difference. -/
theorem SameTransactions.readTransactions_eq_ok {items items' : List JsValue}
    (h : SameTransactions items items') (transactions : List LedgerTransaction) :
    readTransactions items = .ok transactions ↔ readTransactions items' = .ok transactions := by
  obtain ⟨ordered, hperm, hsame⟩ := h
  have heq : readTransactions ordered = readTransactions items' := by
    rw [readTransactions, readTransactions, mapM_same hsame]
  rw [← heq]
  exact ⟨readTransactions_perm hperm, readTransactions_perm hperm.symm⟩

/-! ## Responses -/

theorem readHeader_congr {result result' ledger ledger' : JsValue}
    (hresult : ∀ key, key ≠ js "ledger" → result.get key = result'.get key)
    (hledger : ∀ key, key ≠ js "transactions" → ledger.get key = ledger'.get key)
    (transactions : List LedgerTransaction) :
    readHeader result ledger transactions = readHeader result' ledger' transactions := by
  rw [readHeader, readHeader, hresult (js "ledger_index") (by decide),
    hresult (js "ledger_hash") (by decide), hledger (js "ledger_index") (by decide),
    hledger (js "ledger_hash") (by decide), hledger (js "parent_hash") (by decide),
    hledger (js "account_hash") (by decide), hledger (js "transaction_hash") (by decide),
    hledger (js "parent_close_time") (by decide), hledger (js "close_time") (by decide),
    hledger (js "close_time_resolution") (by decide), hledger (js "close_flags") (by decide),
    hledger (js "total_coins") (by decide)]

theorem readHeader_transactions {result ledger : JsValue} {transactions : List LedgerTransaction}
    {l : SourceLedger} (h : readHeader result ledger transactions = .ok l) :
    l.transactions = transactions := by
  simp only [readHeader, bind_eq_ok, pure_eq_ok'] at h
  obtain ⟨_, -, _, -, _, -, _, -, _, -, _, -, _, -, _, -, _, -, _, -, _, -, _, -, _, -, _, -,
    rfl⟩ := h
  rfl

theorem normalizeLedgerResponse_eq_ok {members : Members} {l : SourceLedger} :
    normalizeLedgerResponse (.obj members) = .ok l ↔
      isTrue ((JsValue.obj members).get (js "validated")) = true ∧
      ∃ ledger, (JsValue.obj members).get (js "ledger") = .obj ledger ∧
        isTrue ((JsValue.obj ledger).get (js "closed")) = true ∧
        ∃ items, (JsValue.obj ledger).get (js "transactions") = .arr items ∧
          ∃ transactions, readTransactions items = .ok transactions ∧
            readHeader (.obj members) (.obj ledger) transactions = .ok l := by
  simp only [normalizeLedgerResponse, asRecord, bind_eq_ok, readRecord_eq_ok, readItems_eq_ok,
    ensure_eq_ok, exists_const, JsValue.obj.injEq, exists_eq_left']

/-- The transactions of a ledger that is returned are numbered from zero, and their hashes differ.
-/
theorem transactions_of_normalizeLedgerResponse {value : JsValue} {l : SourceLedger}
    (h : normalizeLedgerResponse value = .ok l) :
    l.transactions.map (·.transactionIndex) = List.range l.transactions.length ∧
      (l.transactions.map (·.hash)).Nodup := by
  cases value with
  | obj members =>
    obtain ⟨-, ledger, -, -, items, -, transactions, hread, hheader⟩ :=
      normalizeLedgerResponse_eq_ok.mp h
    obtain ⟨-, -, -, hindices, hhashes⟩ := readTransactions_eq_ok.mp hread
    rw [readHeader_transactions hheader, List.range_eq_range']
    exact ⟨hindices, hhashes⟩
  | _ => cases h

/-- The ledger returned, or that there is none, does not depend on the order of the transactions and
on their envelopes.  Of every ledger that is returned the transactions are numbered from zero in
their order and have different hashes, so that `assertTransactionOrdering` accepts it. -/
theorem normalizeLedgerResponse_rearranged {members members' : Members}
    (h : Rearranged members members') :
    (∀ l, normalizeLedgerResponse (.obj members) = .ok l ↔
      normalizeLedgerResponse (.obj members') = .ok l) ∧
    ∀ value l, normalizeLedgerResponse value = .ok l →
      l.transactions.map (·.transactionIndex) = List.range l.transactions.length ∧
        (l.transactions.map (·.hash)).Nodup ∧
        assertTransactionOrdering l.toValidatedLedger = .ok () := by
  constructor
  · intro l
    obtain ⟨ledger, ledger', items, items', hledger, hledger', hkeys, hitems, hitems', hsame⟩ :=
      h.ledger
    rw [normalizeLedgerResponse_eq_ok, normalizeLedgerResponse_eq_ok, hledger, hledger',
      h.result (js "validated") (by decide)]
    simp only [JsValue.obj.injEq, exists_eq_left', hitems, hitems', JsValue.arr.injEq,
      hkeys (js "closed") (by decide), hsame.readTransactions_eq_ok,
      readHeader_congr h.result hkeys]
  · intro value l hok
    obtain ⟨hindices, hhashes⟩ := transactions_of_normalizeLedgerResponse hok
    refine ⟨hindices, hhashes, ?_⟩
    rw [assertTransactionOrdering, assertTransactionPositions_eq_ok, ← List.range_eq_range']
    exact hindices

/-- The metadata of a transaction. -/
def sampleMetadata (transactionIndex : ℕ) : JsValue :=
  .obj [(js "AffectedNodes", .arr []), (js "TransactionIndex", .num (.ofNat transactionIndex)),
    (js "TransactionResult", .str (js "tesSUCCESS"))]

/-- A hash of one digit. -/
def sampleHash (digit : CodeUnit) : JsValue := .str (List.replicate 64 digit)

/-- A transaction with its fields beside `metaData`. -/
def sampleFlat (transactionIndex : ℕ) (digit : CodeUnit) : JsValue :=
  .obj [(js "TransactionType", .str (js "Payment")), (js "Fee", .str (js "10")),
    (js "hash", sampleHash digit), (js "metaData", sampleMetadata transactionIndex)]

/-- The same transaction with its fields under `tx_json`. -/
def sampleWrapped (transactionIndex : ℕ) (digit : CodeUnit) : JsValue :=
  .obj [(js "hash", sampleHash digit), (js "meta", sampleMetadata transactionIndex),
    (js "tx_json", .obj [(js "TransactionType", .str (js "Payment")), (js "Fee", .str (js "10"))])]

/-- A response with these transactions. -/
def sampleResponse (items : List JsValue) : Members :=
  [(js "ledger", .obj [(js "transactions", .arr items), (js "closed", .bool true),
      (js "ledger_index", .num (.ofNat 7)), (js "ledger_hash", sampleHash 0x61),
      (js "parent_hash", sampleHash 0x62), (js "account_hash", sampleHash 0x63),
      (js "transaction_hash", sampleHash 0x64), (js "parent_close_time", .num (.ofNat 5)),
      (js "close_time", .num (.ofNat 6)), (js "close_time_resolution", .num (.ofNat 10)),
      (js "close_flags", .num (.ofNat 0)), (js "total_coins", .str (js "99"))]),
    (js "validated", .bool true), (js "ledger_index", .num (.ofNat 7)),
    (js "ledger_hash", sampleHash 0x61)]

theorem sameTransaction_sample (transactionIndex : ℕ) (digit : CodeUnit) :
    SameTransaction (sampleWrapped transactionIndex digit) (sampleFlat transactionIndex digit) :=
  .inr ⟨[(js "TransactionType", .str (js "Payment")), (js "Fee", .str (js "10"))],
    sampleMetadata transactionIndex, sampleHash digit,
    .txJson rfl rfl rfl rfl rfl .outside rfl, .flat rfl rfl rfl rfl rfl rfl⟩

/-- Members that differ in the first one only. -/
theorem get_cons_congr {k key : JsString} (hkey : key ≠ k) (v w : JsValue) (members : Members) :
    (JsValue.obj ((k, v) :: members)).get key = (JsValue.obj ((k, w) :: members)).get key := by
  rw [JsValue.get_obj, JsValue.get_obj, List.lookup_cons, List.lookup_cons, beq_false_of_ne hkey]

theorem rearranged_sampleResponse {items items' : List JsValue}
    (h : SameTransactions items items') :
    Rearranged (sampleResponse items) (sampleResponse items') where
  result _ hkey := get_cons_congr hkey _ _ _
  ledger := ⟨_, _, items, items', rfl, rfl, fun _ hkey => get_cons_congr hkey _ _ _, rfl, rfl, h⟩

theorem normalizeLedgerResponse_rearranged_sample :
    (normalizeLedgerResponse (.obj (sampleResponse
      [sampleFlat 1 0x65, sampleWrapped 0 0x66]))).isOk = true ∧
    ∀ l, normalizeLedgerResponse (.obj (sampleResponse
        [sampleFlat 1 0x65, sampleWrapped 0 0x66])) = .ok l ↔
      normalizeLedgerResponse (.obj (sampleResponse
        [sampleFlat 0 0x66, sampleFlat 1 0x65])) = .ok l :=
  ⟨by decide +kernel, (normalizeLedgerResponse_rearranged (rearranged_sampleResponse
    ⟨[sampleWrapped 0 0x66, sampleFlat 1 0x65], .swap _ _ [],
      .cons (sameTransaction_sample 0 0x66) (.cons (.inl rfl) .nil)⟩)).1⟩

end XrplSource
end Indexer
end Xcs
