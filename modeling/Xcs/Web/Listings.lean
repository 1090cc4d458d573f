import Xcs.Run.Keyset
import Xcs.Web.Pagination
import Xcs.Web.Presenters
import Xcs.Db.Projection
import Mathlib.Data.Prod.Lex

/-!
# The listings of the API

The schemas of a network are listed in the order of the ledger and its registrations in the opposite
one, page by page.  A request fetches one row more than fits on a page, beginning after the place
that the cursor names; that the place of a row comes after another is spelled out in the query as
comparisons of columns.

* `isAfter_iff` and `isBefore_iff`: the comparisons are those of the order of the listing.
* `listSchemas_eq` and `listSchemaRegistrations_eq`: the rows a query fetches.
* `cursor_pagination_exact`: whoever follows the cursors sees every row once.
-/

namespace Xcs
namespace Web

open Js Json Xcs.Core Db Keyset

/-! ## The order of a listing -/

section Order

/-- A `text` column in the order of a collation of the database. -/
def Collated (_collation : LinearOrder JsString) : Type :=
  JsString

instance (collation : LinearOrder JsString) : LinearOrder (Collated collation) :=
  collation

variable (collation : LinearOrder JsString)

/-- What a listing is ordered by: two indices, and a text where both are the same. -/
abbrev ListingKey : Type :=
  ℤ ×ₗ ℤ ×ₗ Collated collation

/-- The key of a place. -/
def listingKey (place : ListingCursor) : ListingKey collation :=
  toLex (place.ledgerIndex, toLex (place.transactionIndex, place.identifier))

/-- The condition of `listSchemas` on a row and the cursor. -/
def isAfter (cursor place : ListingCursor) : Bool :=
  decide (cursor.ledgerIndex < place.ledgerIndex)
    || (place.ledgerIndex == cursor.ledgerIndex
      && decide (cursor.transactionIndex < place.transactionIndex))
    || (place.ledgerIndex == cursor.ledgerIndex
      && place.transactionIndex == cursor.transactionIndex
      && decide (collation.lt cursor.identifier place.identifier))

/-- The condition of `listSchemaRegistrations` on a row and the cursor. -/
def isBefore (cursor place : ListingCursor) : Bool :=
  decide (place.ledgerIndex < cursor.ledgerIndex)
    || (place.ledgerIndex == cursor.ledgerIndex
      && decide (place.transactionIndex < cursor.transactionIndex))
    || (place.ledgerIndex == cursor.ledgerIndex
      && place.transactionIndex == cursor.transactionIndex
      && decide (collation.lt place.identifier cursor.identifier))

theorem listingKey_lt_iff {c d : ListingCursor} :
    listingKey collation c < listingKey collation d ↔
      c.ledgerIndex < d.ledgerIndex ∨ c.ledgerIndex = d.ledgerIndex ∧
        (c.transactionIndex < d.transactionIndex ∨ c.transactionIndex = d.transactionIndex ∧
          collation.lt c.identifier d.identifier) := by
  rw [listingKey, listingKey, Prod.Lex.toLex_lt_toLex, Prod.Lex.toLex_lt_toLex]
  rfl

theorem listingKey_injective : Function.Injective (listingKey collation) := by
  rintro ⟨l, t, s⟩ ⟨l', t', s'⟩ h
  have hpair : (l, t, s) = (l', t', s') := h
  rw [Prod.mk.injEq, Prod.mk.injEq] at hpair
  obtain ⟨rfl, rfl, rfl⟩ := hpair
  rfl

/-- **The nested comparisons are the order of the listing.** -/
theorem isAfter_iff {cursor place : ListingCursor} :
    isAfter collation cursor place = true ↔
      listingKey collation cursor < listingKey collation place := by
  rw [listingKey_lt_iff]
  simp only [isAfter, Bool.or_eq_true, Bool.and_eq_true, decide_eq_true_eq, beq_iff_eq]
  constructor
  · rintro ((h | ⟨h, h'⟩) | ⟨⟨h, h'⟩, h''⟩)
    · exact Or.inl h
    · exact Or.inr ⟨h.symm, Or.inl h'⟩
    · exact Or.inr ⟨h.symm, Or.inr ⟨h'.symm, h''⟩⟩
  · rintro (h | ⟨h, h' | ⟨h', h''⟩⟩)
    · exact Or.inl (Or.inl h)
    · exact Or.inl (Or.inr ⟨h.symm, h'⟩)
    · exact Or.inr ⟨⟨h.symm, h'.symm⟩, h''⟩

theorem isBefore_iff {cursor place : ListingCursor} :
    isBefore collation cursor place = true ↔
      listingKey collation place < listingKey collation cursor := by
  rw [listingKey_lt_iff]
  simp only [isBefore, Bool.or_eq_true, Bool.and_eq_true, decide_eq_true_eq, beq_iff_eq]
  constructor
  · rintro ((h | ⟨h, h'⟩) | ⟨⟨h, h'⟩, h''⟩)
    · exact Or.inl h
    · exact Or.inr ⟨h, Or.inl h'⟩
    · exact Or.inr ⟨h, Or.inr ⟨h', h''⟩⟩
  · rintro (h | ⟨h, h' | ⟨h', h''⟩⟩)
    · exact Or.inl (Or.inl h)
    · exact Or.inl (Or.inr ⟨h, h'⟩)
    · exact Or.inr ⟨⟨h, h'⟩, h''⟩

end Order

/-! ## The queries -/

/-- The place of a schema. -/
def schemaPlace (row : SchemaRow) : ListingCursor :=
  ⟨row.ledgerIndex, row.transactionIndex, row.schemaUid⟩

/-- The place of a registration. -/
def registrationPlace (row : SchemaEventRow) : ListingCursor :=
  ⟨row.ledgerIndex, row.transactionIndex, row.transactionHash⟩

/-- The filters of `listSchemas` other than the cursor. -/
def matchesSchemas (profileId : JsString) (publisher : Option JsString) (row : SchemaRow) : Bool :=
  row.profileId == profileId && publisher.all fun publisher => row.publisher == publisher

/-- `listSchemas` -/
def listSchemas (collation : LinearOrder JsString) (schemas : List SchemaRow)
    (profileId : JsString) (publisher : Option JsString) (cursor : Option ListingCursor)
    (limit : ℕ) : List SchemaRow :=
  ((schemas.filter fun row => matchesSchemas profileId publisher row
      && cursor.all fun cursor => isAfter collation cursor (schemaPlace row)).insertionSort
    fun a b => listingKey collation (schemaPlace a) ≤ listingKey collation (schemaPlace b)).take
    (limit + 1)

/-- `listSchemaRegistrations` -/
def listSchemaRegistrations (collation : LinearOrder JsString) (schemaEvents : List SchemaEventRow)
    (profileId : JsString) (cursor : Option ListingCursor) (limit : ℕ) : List SchemaEventRow :=
  ((schemaEvents.filter fun row => row.profileId == profileId
      && cursor.all fun cursor => isBefore collation cursor (registrationPlace row)).insertionSort
    fun a b => listingKey collation (registrationPlace b)
      ≤ listingKey collation (registrationPlace a)).take (limit + 1)

/-! ## The handlers -/

/-- Why a request is not answered with a page. -/
inductive Refusal where
  | validation
  | reply (statusCode : ℕ) (error message : JsString)
  | unavailable (error : IndexerUnavailable)
  | thrown (error : Thrown)

/-- `^(?:[1-9]|[1-9][0-9]|100)$` -/
def isPageLimit : JsString → Bool
  | [a] => 0x31 ≤ a && a ≤ 0x39
  | [a, b] => 0x31 ≤ a && a ≤ 0x39 && isDigit b
  | s => s == js "100"

/-- `DISCOVERY_PAGE_DEFAULT_LIMIT`, also the default of `/schemas`. -/
def discoveryPageDefaultLimit : ℕ := 20

/-- `Number(limit ?? 20)` -/
def pageLimit : Option JsString → ℕ
  | none => discoveryPageDefaultLimit
  | some limit => ofDigits (limit.map fun u => u.toNat - 0x30)

/-- The parameters that both listings have. -/
structure ListingRequest where
  network : JsString
  cursor : Option JsString
  limit : Option JsString

/-- The parameters of `/schemas`. -/
structure SchemasRequest extends ListingRequest where
  publisher : Option JsString

/-- The patterns and bounds of the parameters that both listings have. -/
def isListingQuery (request : ListingRequest) : Bool :=
  matchesProfileId request.network && request.cursor.all (fun cursor =>
      decide (1 ≤ (codePoints cursor).length ∧ (codePoints cursor).length ≤ 512))
    && request.limit.all isPageLimit

/-- What the snapshot of a request holds besides the rows of the network: the row of the network,
and what the checks of the indexer's evidence say, before and after rows were fetched. -/
structure ListingSnapshot (α : Type) where
  rows : List α
  network : Option EvidenceNetwork
  preflightAuthoritativeRead : Except Refusal Unit
  requireAuthoritativeCheckpoint : List α → Except Refusal Unit

/-- Reading the parameter `cursor`. -/
def cursorParameter (decode : JsString → Except Thrown ListingCursor) :
    Option JsString → Except Refusal (Option ListingCursor)
  | none => .ok none
  | some value =>
      match decode value with
      | .ok cursor => .ok (some cursor)
      | .error _ => .error (.reply 400 (js "CURSOR_INVALID") (js "Invalid cursor"))

/-- The body of an answer: as many items as fit, and the place of the last one where there are
more. -/
def listingPage {β : Type} (encode : ListingCursor → JsString) (place : β → ListingCursor)
    (limit : ℕ) (rows : List β) : Page β JsString :=
  let hasNext := decide (limit < rows.length)
  let items := if hasNext then rows.take limit else rows
  { items, next := if hasNext then items.getLast?.map fun last => encode (place last) else none }

/-- `NETWORK_NOT_FOUND` -/
def networkNotFound : Refusal :=
  .reply 404 (js "NETWORK_NOT_FOUND") (js "Network not found")

/-- `GET /v1/networks/:network/schemas` -/
def getSchemas (P : Platform) (collation : LinearOrder JsString)
    (snapshot : ListingSnapshot SchemaRow) (request : SchemasRequest) :
    Except Refusal (Page SchemaRow JsString) := do
  if !(isListingQuery request.toListingRequest && request.publisher.all hasAddressShape) then
    .error .validation
  else if !request.publisher.all P.isValidClassicAddress then
    .error (.reply 400 (js "ADDRESS_INVALID") (js "publisher must be a valid classic address"))
  else
    let cursor ← cursorParameter decodeSchemaCursor request.cursor
    let limit := pageLimit request.limit
    match snapshot.network with
    | none => .error networkNotFound
    | some _ => do
        snapshot.preflightAuthoritativeRead
        let rows := listSchemas collation snapshot.rows request.network request.publisher cursor
          limit
        snapshot.requireAuthoritativeCheckpoint rows
        .ok (listingPage encodeSchemaCursor schemaPlace limit rows)

/-- An item of the activity. -/
structure ActivityItem extends PublicSchemaRegistration where
  transactionHash : JsString

/-- The place of an item. -/
def activityPlace (item : ActivityItem) : ListingCursor :=
  ⟨item.ledgerIndex, item.transactionIndex, item.transactionHash⟩

/-- What is shown of a row of the activity. -/
def activityItem (P : Platform) (network : EvidenceNetwork) (row : SchemaEventRow) :
    Except Refusal ActivityItem :=
  match publicSchemaRegistration P row network row.transactionHash with
  | .ok registration => .ok { registration with transactionHash := row.transactionHash }
  | .error error => .error (.unavailable error)

/-- `GET /v1/networks/:network/activity` -/
def getActivity (P : Platform) (collation : LinearOrder JsString)
    (snapshot : ListingSnapshot SchemaEventRow) (request : ListingRequest) :
    Except Refusal (Page ActivityItem JsString) := do
  if !isListingQuery request then .error .validation
  else
    let cursor ← cursorParameter decodeSchemaRegistrationCursor request.cursor
    let limit := pageLimit request.limit
    if decide (limit < 1) || decide (100 < limit) then
      .error (.reply 400 (js "LIMIT_INVALID") (js "Invalid limit"))
    else
      match snapshot.network with
      | none => .error networkNotFound
      | some network => do
          snapshot.preflightAuthoritativeRead
          let rows := listSchemaRegistrations collation snapshot.rows request.network cursor limit
          if limit + 1 < rows.length then
            .error (.unavailable ⟨.evidenceInvalid,
              js "The indexed schema activity page exceeds its query bound."⟩)
          else do
            snapshot.requireAuthoritativeCheckpoint rows
            let registrations ← rows.mapM (activityItem P network)
            .ok (listingPage encodeSchemaRegistrationCursor activityPlace limit registrations)

/-! ## The limit -/

/-- A limit that the pattern admits is one from 1 to 100. -/
theorem pageLimit_bounds {limit : Option JsString} (h : limit.all isPageLimit = true) :
    1 ≤ pageLimit limit ∧ pageLimit limit ≤ 100 := by
  cases limit with
  | none => decide
  | some s =>
      have h : isPageLimit s = true := h
      unfold isPageLimit at h
      split at h
      · simp only [Bool.and_eq_true, decide_eq_true_eq, UInt16.le_iff_toNat_le] at h
        simp only [UInt16.reduceToNat] at h
        simp only [pageLimit, ofDigits, ofDigitsAux, List.map_cons, List.map_nil, List.foldl_cons,
          List.foldl_nil]
        omega
      · simp only [isDigit, Bool.and_eq_true, decide_eq_true_eq, UInt16.le_iff_toNat_le] at h
        simp only [UInt16.reduceToNat] at h
        simp only [pageLimit, ofDigits, ofDigitsAux, List.map_cons, List.map_nil, List.foldl_cons,
          List.foldl_nil]
        omega
      · rw [beq_iff_eq.mp h]
        decide

/-- No text has more characters than units, and none has no character but the empty one. -/
theorem length_codePoints (s : JsString) :
    (codePoints s).length ≤ s.length ∧ (1 ≤ s.length → 1 ≤ (codePoints s).length) := by
  fun_induction codePoints s with
  | case1 => simp
  | case2 u => simp
  | case3 u => simp
  | case4 u v rest _ _ ih =>
      simp only [List.length_cons]
      omega
  | case5 u v rest _ _ ih =>
      simp only [List.length_cons] at ih ⊢
      omega
  | case6 u v rest _ _ ih =>
      simp only [List.length_cons] at ih ⊢
      omega
  | case7 u v rest _ _ ih =>
      simp only [List.length_cons] at ih ⊢
      omega

/-! ## The rows a query fetches -/

section Queries

variable (collation : LinearOrder JsString)

/-- The key of a schema in the catalog. -/
def schemaKey (row : SchemaRow) : ListingKey collation :=
  listingKey collation (schemaPlace row)

/-- The position of a place in the activity, which begins with the newest. -/
def activityKey (place : ListingCursor) : (ListingKey collation)ᵒᵈ :=
  OrderDual.toDual (listingKey collation place)

/-- The key of a registration in the activity. -/
def registrationKey (row : SchemaEventRow) : (ListingKey collation)ᵒᵈ :=
  activityKey collation (registrationPlace row)

/-- The schemas of a network, of one publisher where the request names one. -/
def matchingSchemas (request : SchemasRequest) (schemas : List SchemaRow) : List SchemaRow :=
  schemas.filter (matchesSchemas request.network request.publisher)

/-- The registrations of a network. -/
def matchingRegistrations (request : ListingRequest) (schemaEvents : List SchemaEventRow) :
    List SchemaEventRow :=
  schemaEvents.filter fun row => row.profileId == request.network

/-- **The query of the catalog** is the listing of the matching rows after the cursor. -/
theorem listSchemas_eq (request : SchemasRequest) (schemas : List SchemaRow)
    (cursor : Option ListingCursor) (limit : ℕ) :
    listSchemas collation schemas request.network request.publisher cursor limit
      = (listing (schemaKey collation) (cursor.map (listingKey collation))
          (matchingSchemas request schemas)).take (limit + 1) := by
  rw [listSchemas, listing, matchingSchemas, List.filter_filter]
  refine congrArg (fun rows => (ordered (schemaKey collation) rows).take (limit + 1)) ?_
  refine List.filter_congr fun row _ => ?_
  rw [Bool.and_comm]
  refine congrArg (· && matchesSchemas request.network request.publisher row) ?_
  cases cursor with
  | none => rfl
  | some cursor =>
      rw [Bool.eq_iff_iff]
      exact (isAfter_iff collation).trans decide_eq_true_iff.symm

/-- **The query of the activity** is the listing of the registrations before the cursor. -/
theorem listSchemaRegistrations_eq (request : ListingRequest) (schemaEvents : List SchemaEventRow)
    (cursor : Option ListingCursor) (limit : ℕ) :
    listSchemaRegistrations collation schemaEvents request.network cursor limit
      = (listing (registrationKey collation) (cursor.map (activityKey collation))
          (matchingRegistrations request schemaEvents)).take (limit + 1) := by
  rw [listSchemaRegistrations, listing, matchingRegistrations, List.filter_filter]
  refine congrArg (fun rows => (ordered (registrationKey collation) rows).take (limit + 1)) ?_
  refine List.filter_congr fun row _ => ?_
  rw [Bool.and_comm]
  refine congrArg (· && row.profileId == request.network) ?_
  cases cursor with
  | none => rfl
  | some cursor =>
      rw [Bool.eq_iff_iff]
      exact (isBefore_iff collation).trans decide_eq_true_iff.symm

end Queries

/-! ## Cursors that name positions -/

section Pages

variable {α β κ : Type} {toKey : ListingCursor → κ} {encode : ListingCursor → JsString}

/-- A position of a listing and the cursor that is sent for it. -/
def Names (toKey : ListingCursor → κ) (encode : ListingCursor → JsString) (k : κ)
    (cursor : JsString) : Prop :=
  ∃ place, IsPlace place ∧ toKey place = k ∧ encode place = cursor

/-- The handler reads the position back from the cursor. -/
theorem cursorParameter_of_names {decode : JsString → Except Thrown ListingCursor}
    (hdecode : ∀ place, IsPlace place → decode (encode place) = .ok place) {k : Option κ}
    {cursor : Option JsString} (h : Option.Rel (Names toKey encode) k cursor) :
    ∃ place, cursorParameter decode cursor = .ok place ∧ place.map toKey = k := by
  cases h with
  | none => exact ⟨none, rfl, rfl⟩
  | some hnames =>
      obtain ⟨place, hplace, rfl, rfl⟩ := hnames
      exact ⟨some place, by rw [cursorParameter, hdecode place hplace], rfl⟩

theorem getLast?_rel {R : α → β → Prop} {xs : List α} {ys : List β} (h : List.Forall₂ R xs ys) :
    Option.Rel R xs.getLast? ys.getLast? := by
  rw [List.getLast?_eq_head?_reverse, List.getLast?_eq_head?_reverse]
  have hreverse := List.rel_reverse h
  generalize xs.reverse = xs at hreverse ⊢
  generalize ys.reverse = ys at hreverse ⊢
  cases hreverse with
  | nil => exact .none
  | cons hab _ => exact .some hab

variable {key : α → κ} {place : α → ListingCursor} {itemPlace : β → ListingCursor}

/-- **The body of an answer is a page of the listing**, with a cursor for the position where the
next one begins. -/
theorem listingPage_rel {R : α → β → Prop} (hkey : ∀ a, toKey (place a) = key a)
    (hitem : ∀ a b, R a b → itemPlace b = place a) {limit : ℕ} {found : List α} {items : List β}
    (h : List.Forall₂ R found items) (hplace : ∀ a ∈ found, IsPlace (place a)) :
    List.Forall₂ R (pageOf key limit found).items (listingPage encode itemPlace limit items).items ∧
      Option.Rel (Names toKey encode) (pageOf key limit found).next
        (listingPage encode itemPlace limit items).next := by
  rw [pageOf, listingPage, h.length_eq]
  by_cases hlimit : limit < items.length
  · rw [if_pos hlimit]
    simp only [hlimit, decide_true, if_true]
    have htake := List.forall₂_take limit h
    refine ⟨htake, ?_⟩
    have hmem : ∀ a ∈ (found.take limit).getLast?, IsPlace (place a) := by
      intro a ha
      exact hplace a (List.mem_of_mem_take (List.mem_of_getLast? ha))
    have hlast := getLast?_rel htake
    generalize (found.take limit).getLast? = last at hmem hlast ⊢
    generalize (items.take limit).getLast? = last' at hlast ⊢
    cases hlast with
    | none => exact .none
    | @some a b hab =>
        exact .some ⟨place a, hmem a rfl, hkey a, congrArg encode (hitem a b hab).symm⟩
  · rw [if_neg hlimit]
    simp only [hlimit, decide_false, Bool.false_eq_true, if_false]
    exact ⟨h, .none⟩

end Pages

/-! ## The tables -/

/-- The constraints of `schemas`. -/
structure IsSchemasTable (rows : List SchemaRow) : Prop where
  checks : ∀ row ∈ rows, ∀ c ∈ row.checks, c.2 = true
  transactionIndex : ∀ row ∈ rows, isInt4 row.transactionIndex = true
  primaryKey : (rows.map fun row => (row.profileId, row.schemaUid)).Nodup

/-- The constraints of `schema_events`. -/
structure IsSchemaEventsTable (rows : List SchemaEventRow) : Prop where
  checks : ∀ row ∈ rows, ∀ c ∈ row.checks, c.2 = true
  transactionIndex : ∀ row ∈ rows, isInt4 row.transactionIndex = true
  primaryKey : (rows.map fun row => (row.profileId, row.transactionHash)).Nodup

theorem isPlace_schemaPlace {rows : List SchemaRow} (h : IsSchemasTable rows) {row : SchemaRow}
    (hrow : row ∈ rows) : IsPlace (schemaPlace row) := by
  have hchecks := h.checks row hrow
  have hint4 := h.transactionIndex row hrow
  rw [isInt4, decide_eq_true_eq] at hint4
  simp only [SchemaRow.checks, List.forall_mem_cons, decide_eq_true_eq] at hchecks
  obtain ⟨hledger, -, -, -, htransaction, huid, -⟩ := hchecks
  exact ⟨hledger, ⟨htransaction, hint4.2⟩, huid⟩

theorem isPlace_registrationPlace {rows : List SchemaEventRow} (h : IsSchemaEventsTable rows)
    {row : SchemaEventRow} (hrow : row ∈ rows) : IsPlace (registrationPlace row) := by
  have hchecks := h.checks row hrow
  have hint4 := h.transactionIndex row hrow
  rw [isInt4, decide_eq_true_eq] at hint4
  simp only [SchemaEventRow.checks, List.forall_mem_cons, decide_eq_true_eq] at hchecks
  obtain ⟨-, hledger, -, -, -, hhash, htransaction, -⟩ := hchecks
  exact ⟨hledger, ⟨htransaction, hint4.2⟩, hhash⟩

section Tables

variable (collation : LinearOrder JsString)

theorem distinct_matchingSchemas {rows : List SchemaRow} (h : IsSchemasTable rows)
    (request : SchemasRequest) :
    Distinct (schemaKey collation) (matchingSchemas request rows) := by
  have hkey := h.primaryKey
  rw [List.Nodup, List.pairwise_map] at hkey
  rw [Distinct, List.Nodup, List.pairwise_map, matchingSchemas, List.pairwise_filter]
  refine hkey.imp fun hne ha hb heq => hne ?_
  simp only [matchesSchemas, Bool.and_eq_true, beq_iff_eq] at ha hb
  have hplace := listingKey_injective collation heq
  rw [ha.1, hb.1]
  exact congrArg (Prod.mk request.network) (congrArg ListingCursor.identifier hplace)

theorem distinct_matchingRegistrations {rows : List SchemaEventRow} (h : IsSchemaEventsTable rows)
    (request : ListingRequest) :
    Distinct (registrationKey collation) (matchingRegistrations request rows) := by
  have hkey := h.primaryKey
  rw [List.Nodup, List.pairwise_map] at hkey
  rw [Distinct, List.Nodup, List.pairwise_map, matchingRegistrations, List.pairwise_filter]
  refine hkey.imp fun hne ha hb heq => hne ?_
  have hplace := listingKey_injective collation (OrderDual.toDual.injective heq)
  rw [beq_iff_eq.mp ha, beq_iff_eq.mp hb]
  exact congrArg (Prod.mk request.network) (congrArg ListingCursor.identifier hplace)

/-- The coordinates of one row are larger than those of another. -/
def LargerCoordinates (c d : ListingCursor) : Prop :=
  c.ledgerIndex < d.ledgerIndex ∨
    c.ledgerIndex = d.ledgerIndex ∧ c.transactionIndex < d.transactionIndex

/-- Rows with larger coordinates were added to those of a network; what happens to the rows of other
networks is left open. -/
def RowsAppended {α : Type} (profileId : α → JsString) (place : α → ListingCursor)
    (network : JsString) (rows rows' : List α) : Prop :=
  ∃ new, (rows'.filter fun row => profileId row == network).Perm
      ((rows.filter fun row => profileId row == network) ++ new) ∧
    ∀ a ∈ rows, profileId a = network → ∀ b ∈ new, LargerCoordinates (place a) (place b)

theorem listingKey_lt_of_larger {c d : ListingCursor} (h : LargerCoordinates c d) :
    listingKey collation c < listingKey collation d := by
  rw [listingKey_lt_iff]
  rcases h with h | ⟨h, h'⟩
  · exact Or.inl h
  · exact Or.inr ⟨h, Or.inl h'⟩

theorem appended_matchingSchemas {request : SchemasRequest} {rows rows' : List SchemaRow}
    (h : RowsAppended SchemaRow.profileId schemaPlace request.network rows rows') :
    Appended (schemaKey collation) (matchingSchemas request rows)
      (matchingSchemas request rows') := by
  obtain ⟨new, hperm, hlarger⟩ := h
  refine ⟨new.filter (matchesSchemas request.network request.publisher), ?_, ?_⟩
  · have hfilter := hperm.filter (matchesSchemas request.network request.publisher)
    rw [List.filter_append, List.filter_filter, List.filter_filter] at hfilter
    have hmatches : (fun row : SchemaRow => matchesSchemas request.network request.publisher row
        && row.profileId == request.network)
        = matchesSchemas request.network request.publisher := by
      ext row
      rw [matchesSchemas]
      cases row.profileId == request.network <;> simp
    rw [hmatches] at hfilter
    exact hfilter
  · intro a ha b hb
    obtain ⟨ha, hmatches⟩ := List.mem_filter.mp ha
    rw [matchesSchemas, Bool.and_eq_true, beq_iff_eq] at hmatches
    exact listingKey_lt_of_larger collation
      (hlarger a ha hmatches.1 b (List.mem_filter.mp hb).1)

theorem prepended_matchingRegistrations {request : ListingRequest}
    {rows rows' : List SchemaEventRow}
    (h : RowsAppended SchemaEventRow.profileId registrationPlace request.network rows rows') :
    Prepended (registrationKey collation) (matchingRegistrations request rows)
      (matchingRegistrations request rows') := by
  obtain ⟨new, hperm, hlarger⟩ := h
  refine ⟨new, hperm, fun a ha b hb => ?_⟩
  obtain ⟨ha, hmatches⟩ := List.mem_filter.mp ha
  exact OrderDual.toDual_lt_toDual.mpr
    (listingKey_lt_of_larger collation (hlarger a ha (beq_iff_eq.mp hmatches) b hb))

end Tables

/-! ## The handlers -/

/-- What a snapshot passes that is answered with a page. -/
structure ListingSnapshot.Passes {α : Type} (snapshot : ListingSnapshot α) : Prop where
  network : snapshot.network.isSome = true
  preflight : snapshot.preflightAuthoritativeRead = .ok ()
  checkpoint : ∀ rows, snapshot.requireAuthoritativeCheckpoint rows = .ok ()

/-- A request for a page of the catalog that is well formed but for its cursor. -/
def isSchemasQuery (P : Platform) (request : SchemasRequest) : Bool :=
  isListingQuery request.toListingRequest && request.publisher.all hasAddressShape
    && request.publisher.all P.isValidClassicAddress

section Handlers

variable {P : Platform} {collation : LinearOrder JsString}

theorem getSchemas_eq_ok {snapshot : ListingSnapshot SchemaRow} {request : SchemasRequest}
    {p : Page SchemaRow JsString} :
    getSchemas P collation snapshot request = .ok p ↔
      isSchemasQuery P request = true ∧ snapshot.network.isSome = true ∧
        snapshot.preflightAuthoritativeRead = .ok () ∧
        ∃ cursor, cursorParameter decodeSchemaCursor request.cursor = .ok cursor ∧
          snapshot.requireAuthoritativeCheckpoint (listSchemas collation snapshot.rows
            request.network request.publisher cursor (pageLimit request.limit)) = .ok () ∧
          p = listingPage encodeSchemaCursor schemaPlace (pageLimit request.limit)
            (listSchemas collation snapshot.rows request.network request.publisher cursor
              (pageLimit request.limit)) := by
  rw [getSchemas, isSchemasQuery]
  by_cases hquery : (isListingQuery request.toListingRequest
      && request.publisher.all hasAddressShape) = true
  · by_cases haddress : request.publisher.all P.isValidClassicAddress = true
    · rw [hquery, haddress]
      cases hnetwork : snapshot.network with
      | none => simp [networkNotFound]
      | some network =>
          simp only [Bool.not_true, Bool.false_eq_true, if_false, bind_eq_ok, Except.ok.injEq,
            Bool.and_self, Option.isSome_some, true_and]
          constructor
          · rintro ⟨cursor, hcursor, _, hpreflight, _, hcheckpoint, rfl⟩
            exact ⟨hpreflight, cursor, hcursor, hcheckpoint, rfl⟩
          · rintro ⟨hpreflight, cursor, hcursor, hcheckpoint, rfl⟩
            exact ⟨cursor, hcursor, (), hpreflight, (), hcheckpoint, rfl⟩
    · rw [hquery, Bool.eq_false_iff.mpr haddress]
      simp
  · rw [Bool.eq_false_iff.mpr hquery]
    simp

theorem getActivity_eq_ok {snapshot : ListingSnapshot SchemaEventRow} {request : ListingRequest}
    {p : Page ActivityItem JsString} :
    getActivity P collation snapshot request = .ok p ↔
      isListingQuery request = true ∧ ∃ network, snapshot.network = some network ∧
        snapshot.preflightAuthoritativeRead = .ok () ∧
        ∃ cursor, cursorParameter decodeSchemaRegistrationCursor request.cursor = .ok cursor ∧
          snapshot.requireAuthoritativeCheckpoint (listSchemaRegistrations collation snapshot.rows
            request.network cursor (pageLimit request.limit)) = .ok () ∧
          ∃ items, List.Forall₂ (fun row item => activityItem P network row = .ok item)
              (listSchemaRegistrations collation snapshot.rows request.network cursor
                (pageLimit request.limit)) items ∧
            p = listingPage encodeSchemaRegistrationCursor activityPlace (pageLimit request.limit)
              items := by
  rw [getActivity]
  by_cases hquery : isListingQuery request = true
  · have hlimit : request.limit.all isPageLimit = true := by
      simp only [isListingQuery, Bool.and_eq_true] at hquery
      exact hquery.2
    obtain ⟨hone, hhundred⟩ := pageLimit_bounds hlimit
    have hbounds : (decide (pageLimit request.limit < 1)
        || decide (100 < pageLimit request.limit)) = false := by
      rw [Bool.or_eq_false_iff, decide_eq_false_iff_not, decide_eq_false_iff_not]
      omega
    have hfew : ∀ cursor, ¬pageLimit request.limit + 1 < (listSchemaRegistrations collation
        snapshot.rows request.network cursor (pageLimit request.limit)).length := by
      intro cursor
      rw [listSchemaRegistrations, List.length_take]
      omega
    rw [hquery]
    simp only [hbounds]
    cases hnetwork : snapshot.network with
    | none => simp [networkNotFound]
    | some network =>
        simp only [Bool.not_true, Bool.false_eq_true, if_false, hfew, bind_eq_ok, mapM_eq_ok,
          Except.ok.injEq, Option.some.injEq, true_and, exists_eq_left']
        constructor
        · rintro ⟨cursor, hcursor, _, hpreflight, _, hcheckpoint, items, hitems, rfl⟩
          exact ⟨hpreflight, cursor, hcursor, hcheckpoint, items, hitems, rfl⟩
        · rintro ⟨hpreflight, cursor, hcursor, hcheckpoint, items, hitems, rfl⟩
          exact ⟨cursor, hcursor, (), hpreflight, (), hcheckpoint, items, hitems, rfl⟩
  · rw [Bool.eq_false_iff.mpr hquery]
    simp

end Handlers

/-! ## Following the cursors -/

/-- Request `n` for a page of the catalog finds snapshot `n`. -/
def schemasAnswers (P : Platform) (collation : LinearOrder JsString)
    (snapshots : ℕ → ListingSnapshot SchemaRow) (request : SchemasRequest) (n : ℕ)
    (cursor : Option JsString) : Except Refusal (Page SchemaRow JsString) :=
  getSchemas P collation (snapshots n) { request with cursor := cursor }

/-- Request `n` for a page of the activity finds snapshot `n`. -/
def activityAnswers (P : Platform) (collation : LinearOrder JsString)
    (snapshots : ℕ → ListingSnapshot SchemaEventRow) (request : ListingRequest) (n : ℕ)
    (cursor : Option JsString) : Except Refusal (Page ActivityItem JsString) :=
  getActivity P collation (snapshots n) { request with cursor := cursor }

/-- An item shows a row of the activity. -/
def Shows (P : Platform) (row : SchemaEventRow) (item : ActivityItem) : Prop :=
  ∃ network, activityItem P network row = .ok item

theorem Shows.place {P : Platform} {row : SchemaEventRow} {item : ActivityItem}
    (h : Shows P row item) : activityPlace item = registrationPlace row := by
  obtain ⟨network, h⟩ := h
  rw [activityItem] at h
  split at h
  · rename_i registration hregistration
    cases h
    have hrow := publicSchemaRegistration_row hregistration
    rw [activityPlace, registrationPlace, hrow]
    rfl
  · cases h

/-- A cursor that was sent for a position is one the query string admits. -/
theorem isListingQuery_of_names {κ : Type} {toKey : ListingCursor → κ} {name : JsString}
    (hname : name ∈ cursorNames) {request : ListingRequest}
    (hrequest : isListingQuery request = true) {k : Option κ} {cursor : Option JsString}
    (hcursor : Option.Rel (Names toKey (encodeCursor name)) k cursor) :
    isListingQuery { request with cursor := cursor } = true := by
  simp only [isListingQuery, Bool.and_eq_true] at hrequest ⊢
  refine ⟨⟨hrequest.1.1, ?_⟩, hrequest.2⟩
  cases hcursor with
  | none => rfl
  | some hnames =>
      obtain ⟨place, hplace, -, rfl⟩ := hnames
      obtain ⟨hone, hmax⟩ := length_encodeCursor_le hname hplace
      obtain ⟨hle, hpos⟩ := length_codePoints (encodeCursor name place)
      exact decide_eq_true ⟨hpos hone, hle.trans hmax⟩

section Walks

variable {P : Platform} {collation : LinearOrder JsString}

/-- The page of the catalog behind an answer. -/
theorem schemas_page {rows : List SchemaRow} (htable : IsSchemasTable rows)
    (request : SchemasRequest) (limit : ℕ) (place : Option ListingCursor) :
    let found := listSchemas collation rows request.network request.publisher place limit
    let p := page (schemaKey collation) limit (matchingSchemas request rows)
      (place.map (listingKey collation))
    let q := listingPage encodeSchemaCursor schemaPlace limit found
    List.Forall₂ Eq p.items q.items ∧
      Option.Rel (Names (listingKey collation) encodeSchemaCursor) p.next q.next := by
  dsimp only
  rw [page, ← listSchemas_eq]
  refine listingPage_rel (fun _ => rfl) (fun a b hab => by rw [hab])
    (List.forall₂_refl _) fun row hrow => ?_
  rw [listSchemas_eq] at hrow
  have hmatching := (mem_listing.mp (List.mem_of_mem_take hrow)).1
  exact isPlace_schemaPlace htable (List.mem_filter.mp hmatching).1

/-- The page of the activity behind an answer. -/
theorem activity_page {rows : List SchemaEventRow} (htable : IsSchemaEventsTable rows)
    (request : ListingRequest) (limit : ℕ) (place : Option ListingCursor)
    {items : List ActivityItem}
    (hitems : List.Forall₂ (Shows P)
      (listSchemaRegistrations collation rows request.network place limit) items) :
    let p := page (registrationKey collation) limit (matchingRegistrations request rows)
      (place.map (activityKey collation))
    let q := listingPage encodeSchemaRegistrationCursor activityPlace limit items
    List.Forall₂ (Shows P) p.items q.items ∧
      Option.Rel (Names (activityKey collation) encodeSchemaRegistrationCursor) p.next q.next := by
  have hkey : ∀ row, activityKey collation (registrationPlace row)
      = registrationKey collation row := fun _ => rfl
  dsimp only
  rw [page, ← listSchemaRegistrations_eq]
  refine listingPage_rel hkey (fun row item hshows => hshows.place) hitems fun row hrow => ?_
  rw [listSchemaRegistrations_eq] at hrow
  have hmatching := (mem_listing.mp (List.mem_of_mem_take hrow)).1
  exact isPlace_registrationPlace htable (List.mem_filter.mp hmatching).1

/-- **The catalog.**  Pages that were followed to the last list the catalog as it was then. -/
theorem follows_schemas {request : SchemasRequest} {snapshots : ℕ → ListingSnapshot SchemaRow}
    (htable : ∀ n, IsSchemasTable (snapshots n).rows)
    (hgrow : ∀ n, RowsAppended SchemaRow.profileId schemaPlace request.network
      (snapshots n).rows (snapshots (n + 1)).rows)
    {n : ℕ} {items : List SchemaRow}
    (h : Follows (schemasAnswers P collation snapshots request) none n items) :
    items = ordered (schemaKey collation) (matchingSchemas request (snapshots n).rows) := by
  have hlimit : 1 ≤ pageLimit request.limit := by
    have hquery : isSchemasQuery P { request with cursor := none } = true := by
      cases h with
      | last answer => exact (getSchemas_eq_ok.mp answer).1
      | more answer _ => exact (getSchemas_eq_ok.mp answer).1
    simp only [isSchemasQuery, isListingQuery, Bool.and_eq_true] at hquery
    exact (pageLimit_bounds hquery.1.1.2).1
  have hreflect : ∃ items', Follows (pages (schemaKey collation) (pageLimit request.limit)
        (fun n => matchingSchemas request (snapshots n).rows) : ℕ → _ → Except Refusal _)
      none n items' ∧ List.Forall₂ Eq items' items := by
    refine h.reflect (S := Names (listingKey collation) encodeSchemaCursor) ?_ .none
    intro n k cursor q hcursor hanswer
    obtain ⟨-, -, -, place, hplace, -, rfl⟩ := getSchemas_eq_ok.mp hanswer
    obtain ⟨place', hplace', rfl⟩ := cursorParameter_of_names
      (fun _ => decodeCursor_encodeCursor (by decide)) hcursor
    cases hplace.symm.trans hplace'
    exact ⟨_, rfl, schemas_page (htable n) request _ place⟩
  obtain ⟨items', hfollows, hitems⟩ := hreflect
  rw [List.forall₂_eq_eq_eq] at hitems
  rw [← hitems, ← listing_none]
  exact follows_appended hlimit (fun n => distinct_matchingSchemas collation (htable n) request)
    (fun n => appended_matchingSchemas collation (hgrow n)) hfollows

/-- The last page of a catalog that does not change is reached. -/
theorem exists_follows_schemas {request : SchemasRequest}
    (hrequest : isSchemasQuery P { request with cursor := none } = true)
    {snapshots : ℕ → ListingSnapshot SchemaRow} (htable : ∀ n, IsSchemasTable (snapshots n).rows)
    (hpasses : ∀ n, (snapshots n).Passes) (hsame : ∀ n, (snapshots n).rows = (snapshots 0).rows) :
    ∃ n items, Follows (schemasAnswers P collation snapshots request) none n items := by
  have hprepended : ∀ n, Prepended (schemaKey collation)
      (matchingSchemas request (snapshots 0).rows)
        (matchingSchemas request (snapshots n).rows) := by
    intro n
    rw [hsame n]
    exact .refl _
  have hdistinct : ∀ n, Distinct (schemaKey collation)
      (matchingSchemas request (snapshots n).rows) :=
    fun n => distinct_matchingSchemas collation (htable n) request
  have hfollows : ∃ n items, Follows (pages (schemaKey collation) (pageLimit request.limit)
      (fun n => matchingSchemas request (snapshots n).rows) : ℕ → _ → Except Refusal _)
      none n items := exists_follows (hdistinct 0) hdistinct hprepended rfl
  obtain ⟨n, items, hfollows⟩ := hfollows
  have hothers : ∃ others, Follows (schemasAnswers P collation snapshots request) none n others ∧
      List.Forall₂ Eq items others := by
    refine hfollows.transport (S := Names (listingKey collation) encodeSchemaCursor) ?_ .none
    intro n k cursor p hcursor hpage
    cases hpage
    obtain ⟨place, hplace, rfl⟩ := cursorParameter_of_names
      (fun _ => decodeCursor_encodeCursor (by decide)) hcursor
    have hquery : isSchemasQuery P { request with cursor := cursor } = true := by
      simp only [isSchemasQuery, Bool.and_eq_true] at hrequest ⊢
      exact ⟨⟨isListingQuery_of_names (by decide) hrequest.1.1 hcursor, hrequest.1.2⟩, hrequest.2⟩
    refine ⟨_, getSchemas_eq_ok.mpr ⟨hquery, (hpasses n).network, (hpasses n).preflight, place,
      hplace, (hpasses n).checkpoint _, rfl⟩, ?_⟩
    exact schemas_page (htable n) request _ place
  obtain ⟨others, hothers, -⟩ := hothers
  exact ⟨n, others, hothers⟩

/-- **The activity.**  Pages that were followed to the last list the activity as it was at first. -/
theorem follows_activity {request : ListingRequest}
    {snapshots : ℕ → ListingSnapshot SchemaEventRow}
    (htable : ∀ n, IsSchemaEventsTable (snapshots n).rows)
    (hgrow : ∀ n, RowsAppended SchemaEventRow.profileId registrationPlace request.network
      (snapshots n).rows (snapshots (n + 1)).rows)
    {n : ℕ} {items : List ActivityItem}
    (h : Follows (activityAnswers P collation snapshots request) none n items) :
    List.Forall₂ (Shows P)
      (ordered (registrationKey collation) (matchingRegistrations request (snapshots 0).rows))
      items := by
  have hlimit : 1 ≤ pageLimit request.limit := by
    have hquery : isListingQuery { request with cursor := none } = true := by
      cases h with
      | last answer => exact (getActivity_eq_ok.mp answer).1
      | more answer _ => exact (getActivity_eq_ok.mp answer).1
    simp only [isListingQuery, Bool.and_eq_true] at hquery
    exact (pageLimit_bounds hquery.2).1
  have hreflect : ∃ items', Follows (pages (registrationKey collation) (pageLimit request.limit)
        (fun n => matchingRegistrations request (snapshots n).rows) : ℕ → _ → Except Refusal _)
      none n items' ∧ List.Forall₂ (Shows P) items' items := by
    refine h.reflect (S := Names (activityKey collation) encodeSchemaRegistrationCursor) ?_ .none
    intro n k cursor q hcursor hanswer
    obtain ⟨-, network, -, -, place, hplace, -, items, hitems, rfl⟩ :=
      getActivity_eq_ok.mp hanswer
    obtain ⟨place', hplace', rfl⟩ := cursorParameter_of_names
      (fun _ => decodeCursor_encodeCursor (by decide)) hcursor
    cases hplace.symm.trans hplace'
    exact ⟨_, rfl, activity_page (htable n) request _ place
      (hitems.imp fun _ _ hitem => ⟨network, hitem⟩)⟩
  obtain ⟨items', hfollows, hitems⟩ := hreflect
  have heq := follows_prepended hlimit
    (fun n => distinct_matchingRegistrations collation (htable n) request)
    (fun n => prepended_matchingRegistrations collation (hgrow n)) hfollows
  rw [← heq]
  exact hitems

/-- The last page of the activity is reached, whatever is added meanwhile. -/
theorem exists_follows_activity {request : ListingRequest}
    (hrequest : isListingQuery { request with cursor := none } = true)
    {snapshots : ℕ → ListingSnapshot SchemaEventRow}
    (htable : ∀ n, IsSchemaEventsTable (snapshots n).rows)
    (hpasses : ∀ n, (snapshots n).Passes)
    (hshown : ∀ n, ∀ network ∈ (snapshots n).network, ∀ row ∈ (snapshots n).rows,
      row.profileId = request.network → ∃ item, activityItem P network row = .ok item)
    (hgrow : ∀ n, RowsAppended SchemaEventRow.profileId registrationPlace request.network
      (snapshots n).rows (snapshots (n + 1)).rows) :
    ∃ n items, Follows (activityAnswers P collation snapshots request) none n items := by
  have hprepended := Prepended.of_step
    fun n => prepended_matchingRegistrations collation (hgrow n)
  have hdistinct : ∀ n, Distinct (registrationKey collation)
      (matchingRegistrations request (snapshots n).rows) :=
    fun n => distinct_matchingRegistrations collation (htable n) request
  have hfollows : ∃ n items, Follows (pages (registrationKey collation) (pageLimit request.limit)
      (fun n => matchingRegistrations request (snapshots n).rows) : ℕ → _ → Except Refusal _)
      none n items := exists_follows (hdistinct 0) hdistinct hprepended rfl
  obtain ⟨n, items, hfollows⟩ := hfollows
  have hothers : ∃ others, Follows (activityAnswers P collation snapshots request) none n others ∧
      List.Forall₂ (Shows P) items others := by
    refine hfollows.transport (S := Names (activityKey collation) encodeSchemaRegistrationCursor)
      ?_ .none
    intro n k cursor p hcursor hpage
    cases hpage
    obtain ⟨place, hplace, rfl⟩ := cursorParameter_of_names
      (fun _ => decodeCursor_encodeCursor (by decide)) hcursor
    obtain ⟨network, hnetwork⟩ := Option.isSome_iff_exists.mp (hpasses n).network
    have hshow : ∀ row ∈ listSchemaRegistrations collation (snapshots n).rows request.network place
        (pageLimit request.limit), ∃ item, activityItem P network row = .ok item := by
      intro row hrow
      rw [listSchemaRegistrations_eq] at hrow
      have hmatching := (mem_listing.mp (List.mem_of_mem_take hrow)).1
      obtain ⟨hmem, hprofile⟩ := List.mem_filter.mp hmatching
      exact hshown n network hnetwork row hmem (beq_iff_eq.mp hprofile)
    obtain ⟨items, hitems⟩ := exists_forall₂ hshow
    refine ⟨_, getActivity_eq_ok.mpr ⟨isListingQuery_of_names (by decide) hrequest hcursor,
      network, hnetwork, (hpasses n).preflight, place, hplace, (hpasses n).checkpoint _, items,
      hitems, rfl⟩, ?_⟩
    exact activity_page (htable n) request _ place
      (hitems.imp fun _ _ hitem => ⟨network, hitem⟩)
  obtain ⟨others, hothers, -⟩ := hothers
  exact ⟨n, others, hothers⟩

end Walks

/-- **Cursor pagination is exact.**  Along the cursors of the catalog every matching schema is
listed once, in order, also those registered meanwhile; along those of the activity every
registration that was there at first, whatever is registered meanwhile; and a cursor is read back.
-/
theorem cursor_pagination_exact (P : Platform) (collation : LinearOrder JsString) :
    (∀ (request : SchemasRequest) (snapshots : ℕ → ListingSnapshot SchemaRow),
      (∀ n, IsSchemasTable (snapshots n).rows) →
      (∀ n, RowsAppended SchemaRow.profileId schemaPlace request.network
        (snapshots n).rows (snapshots (n + 1)).rows) →
      (∀ n items, Follows (schemasAnswers P collation snapshots request) none n items →
        items = ordered (schemaKey collation) (matchingSchemas request (snapshots n).rows)) ∧
      (isSchemasQuery P { request with cursor := none } = true → (∀ n, (snapshots n).Passes) →
        (∀ n, (snapshots n).rows = (snapshots 0).rows) →
        ∃ n items, Follows (schemasAnswers P collation snapshots request) none n items)) ∧
    (∀ (request : ListingRequest) (snapshots : ℕ → ListingSnapshot SchemaEventRow),
      (∀ n, IsSchemaEventsTable (snapshots n).rows) →
      (∀ n, RowsAppended SchemaEventRow.profileId registrationPlace request.network
        (snapshots n).rows (snapshots (n + 1)).rows) →
      (∀ n items, Follows (activityAnswers P collation snapshots request) none n items →
        List.Forall₂ (Shows P)
          (ordered (registrationKey collation) (matchingRegistrations request (snapshots 0).rows))
          items) ∧
      (isListingQuery { request with cursor := none } = true → (∀ n, (snapshots n).Passes) →
        (∀ n, ∀ network ∈ (snapshots n).network, ∀ row ∈ (snapshots n).rows,
          row.profileId = request.network → ∃ item, activityItem P network row = .ok item) →
        ∃ n items, Follows (activityAnswers P collation snapshots request) none n items)) ∧
    ∀ place, IsPlace place →
      decodeSchemaCursor (encodeSchemaCursor place) = .ok place ∧
      decodeSchemaRegistrationCursor (encodeSchemaRegistrationCursor place) = .ok place := by
  refine ⟨fun request snapshots htable hgrow => ⟨fun n items hfollows => ?_, ?_⟩,
    fun request snapshots htable hgrow => ⟨fun n items hfollows => ?_, ?_⟩, fun place hplace => ?_⟩
  · exact follows_schemas htable hgrow hfollows
  · intro hrequest hpasses hsame
    exact exists_follows_schemas hrequest htable hpasses hsame
  · exact follows_activity htable hgrow hfollows
  · intro hrequest hpasses hshown
    exact exists_follows_activity hrequest htable hpasses hshown hgrow
  · exact ⟨decodeCursor_encodeCursor (by decide) hplace,
      decodeCursor_encodeCursor (by decide) hplace⟩

/-- The order of texts by code units, which a database with the collation `C` uses. -/
abbrev codeUnitCollation : LinearOrder JsString :=
  LinearOrder.lift' (fun s : JsString => s.map UInt16.toNat)
    (List.map_injective_iff.mpr fun _ _ h => UInt16.toNat_inj.mp h)

/-- A schema that was registered at some coordinates. -/
def listedSchema (ledgerIndex : ℤ) (digit : CodeUnit) : SchemaRow where
  profileId := js "testnet"
  schemaUid := List.replicate 64 digit
  publisher := js "rPublisher"
  name := js "Name"
  description := js "Description."
  parentUid := none
  supersedesUid := none
  definition := .null
  resolvedDefinition := .null
  registrationTransactionHash := List.replicate 64 digit
  ledgerIndex
  transactionIndex := 0

/-- A catalog of two schemas, the newer one first in the table. -/
def twoSchemas : ListingSnapshot SchemaRow where
  rows := [listedSchema 9 0x61, listedSchema 8 0x62]
  network := some ⟨1, 7⟩
  preflightAuthoritativeRead := .ok ()
  requireAuthoritativeCheckpoint := fun _ => .ok ()

/-- A request for pages of one schema. -/
def oneByOne : SchemasRequest :=
  ⟨⟨js "testnet", none, some (js "1")⟩, none⟩

/-- The pages of one schema list both. -/
theorem cursor_pagination_exact_sample :
    ∃ n items, Follows (schemasAnswers .sample codeUnitCollation (fun _ => twoSchemas) oneByOne)
        none n items ∧
      items = ordered (schemaKey codeUnitCollation) (matchingSchemas oneByOne twoSchemas.rows) ∧
      items.length = 2 := by
  have htable : IsSchemasTable twoSchemas.rows := by
    refine ⟨?_, ?_, ?_⟩
    · decide +kernel
    · decide +kernel
    · decide +kernel
  obtain ⟨hexact, hexists⟩ := (cursor_pagination_exact .sample codeUnitCollation).1 oneByOne
    (fun _ => twoSchemas) (fun _ => htable)
    (fun _ => ⟨[], by rw [List.append_nil], fun _ _ _ _ hnew => absurd hnew List.not_mem_nil⟩)
  obtain ⟨n, items, hfollows⟩ := hexists (by decide +kernel)
    (fun _ => ⟨rfl, rfl, fun _ => rfl⟩) (fun _ => rfl)
  have hitems := hexact n items hfollows
  refine ⟨n, items, hfollows, hitems, ?_⟩
  rw [hitems, (perm_ordered _).length_eq]
  decide +kernel

end Web
end Xcs
