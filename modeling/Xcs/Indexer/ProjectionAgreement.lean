import Xcs.Core.ResolutionAgreement
import Xcs.Core.SchemaLineage
import Xcs.Indexer.RegistrationStorage

/-!
# The projection of a ledger over two catalogs

The catalog a ledger is projected over may be the one in memory or one that was loaded from the
tables, and another indexer may have moved the tables on in the meantime.  The projection does not
depend on it: the registrations of the ledger come out alike, and where both catalogs have the same
schemas, so do its credential mutations, and what is written to the tables is the same.

* `ExtendsFrom` says that a catalog has grown since a place in the ledgers.
* `interpretSchemaRegistration_agrees` is about one registration and `projectTransactions_agrees`
  about a ledger.
* `persistProjection_agrees` says that the rows are the same.
-/

namespace Xcs
namespace Indexer

open Js Json Xcs.Core Db

/-! ## Registrations that come out alike -/

/-- Two outcomes that differ in the order of the resolved fields only. -/
inductive SameRegistrationOutcome : RegistrationOutcome → RegistrationOutcome → Prop
  | accepted {schemaUid : JsString} {memoJson : JsValue} {definition : SchemaDefinition}
      {resolved resolved' : ResolvedSchema} (h : resolved.toJs.canon = resolved'.toJs.canon) :
      SameRegistrationOutcome (.accepted schemaUid memoJson definition resolved)
        (.accepted schemaUid memoJson definition resolved')
  | rejected (reasonCode : JsString) (memoJson : Option JsValue) :
      SameRegistrationOutcome (.rejected reasonCode memoJson) (.rejected reasonCode memoJson)

/-- Two results for one transaction that differ in the order of the resolved fields only. -/
structure SameRegistration (registration registration' : SchemaRegistrationResult) : Prop where
  transactionHash : registration.transactionHash = registration'.transactionHash
  transactionIndex : registration.transactionIndex = registration'.transactionIndex
  publisher : registration.publisher = registration'.publisher
  outcome : SameRegistrationOutcome registration.outcome registration'.outcome

/-- The two results have one catalog entry. -/
theorem SameRegistration.catalogEntry {profile : NetworkProfile} {ledgerIndex : ℕ}
    {a b : SchemaRegistrationResult} (h : SameRegistration a b) :
    catalogEntry profile ledgerIndex a = catalogEntry profile ledgerIndex b := by
  obtain ⟨hash, index, publisher, outcome⟩ := a
  obtain ⟨hash', index', publisher', outcome'⟩ := b
  obtain ⟨rfl, rfl, rfl, houtcome⟩ := h
  cases houtcome <;> rfl

/-- Two errors for which a registration is rejected alike. -/
def SameReason (error error' : Thrown) : Prop :=
  registrationReason error = registrationReason error'

theorem SameRegistrationOutcome.symm {a b : RegistrationOutcome}
    (h : SameRegistrationOutcome a b) : SameRegistrationOutcome b a := by
  cases h with
  | accepted h => exact .accepted h.symm
  | rejected reasonCode memoJson => exact .rejected reasonCode memoJson

theorem SameRegistration.symm {a b : SchemaRegistrationResult} (h : SameRegistration a b) :
    SameRegistration b a :=
  ⟨h.transactionHash.symm, h.transactionIndex.symm, h.publisher.symm, h.outcome.symm⟩

theorem SameReason.of_sameCode {error error' : Thrown} (h : SameCode error error') :
    SameReason error error' := by
  obtain ⟨e, e', rfl, rfl, hcode⟩ := h
  exact congrArg XcsErrorCode.text hcode

section Interpretation

variable {P : Platform} {transactionIndex : ℕ} {ledgerHash : JsString} {ledgerIndex networkId : ℕ}
  {envelope : RegistrationEnvelope} {catalog catalog' : SchemaLookup}

/-- What the definition of a memo resolves to differs in the order of the fields only. -/
theorem resolveDefinition_agrees {context : SchemaCoordinates}
    (h : SameBefore context catalog catalog') {definition : SchemaDefinition}
    (hvalid : definition.isValid = true) :
    SameOutcome SameReason (fun resolved resolved' => resolved.toJs.canon = resolved'.toJs.canon)
      (resolveSchema P definition.toJs ⟨context, catalog⟩)
      (resolveSchema P definition.toJs ⟨context, catalog'⟩) := by
  have hparse := parseSchema_toJs hvalid
  have hdefinition : ∀ {catalog : SchemaLookup} {resolved : ResolvedSchema},
      resolveSchema P definition.toJs ⟨context, catalog⟩ = .ok resolved →
        resolved.definition = definition := by
    intro catalog resolved hresolve
    obtain ⟨-, -, -, -, schema, hschema, hresolution, -⟩ := resolveSchema_eq_ok.mp hresolve
    obtain rfl : definition = schema := Except.ok.inj (hparse.symm.trans hschema)
    exact hresolution.definition_eq
  refine (resolveSchema_agrees P h hparse).and_ok.mono (fun _ _ => SameReason.of_sameCode) ?_
  rintro resolved resolved' ⟨hsame, hok, hok'⟩
  rw [ResolvedSchema.canon_toJs_eq_iff, hdefinition hok, hdefinition hok']
  exact ⟨rfl, canon_fieldsJs_eq hsame.fields, hsame.lineage⟩

/-- What `acceptRegistration` returns over the two catalogs. -/
def SameAcceptance (outcome outcome' : Option RegistrationOutcome) : Prop :=
  Option.Rel SameRegistrationOutcome outcome outcome'

theorem acceptRegistration_agrees
    (h : SameBefore ⟨networkId, envelope.publisher, ledgerIndex, transactionIndex⟩ catalog catalog')
    (parsed : JsValue) :
    SameOutcome SameReason SameAcceptance
      (acceptRegistration P transactionIndex ledgerHash ledgerIndex networkId envelope catalog
        parsed)
      (acceptRegistration P transactionIndex ledgerHash ledgerIndex networkId envelope catalog'
        parsed) := by
  have hrefl : ∀ {α : Type} (x : Except Thrown α), SameOutcome SameReason Eq x x :=
    fun x => @SameOutcome.refl _ _ SameReason Eq (fun _ => rfl) (fun _ => rfl) x
  unfold acceptRegistration
  refine (hrefl _).bind ?_
  rintro canonical _ rfl
  split_ifs
  · exact .ok .none
  · refine (hrefl _).and_ok.bind ?_
    rintro definition _ ⟨rfl, hdefinition, -⟩
    refine (resolveDefinition_agrees h (isValid_of_parseSchema hdefinition)).bind ?_
    intro resolved resolved' hresolved
    refine (hrefl _).bind ?_
    rintro schemaUid _ rfl
    exact .ok (.some (.accepted hresolved))

/-- The outcome of a memo over the two catalogs. -/
theorem interpretEnvelope_agrees
    (h : SameBefore ⟨networkId, envelope.publisher, ledgerIndex, transactionIndex⟩ catalog
      catalog') :
    SameRegistrationOutcome
      (interpretEnvelope P transactionIndex ledgerHash ledgerIndex networkId envelope catalog)
      (interpretEnvelope P transactionIndex ledgerHash ledgerIndex networkId envelope catalog') := by
  unfold interpretEnvelope
  cases parseJson envelope.jsonText with
  | error error => exact .rejected _ _
  | ok parsed =>
      have hsame := @acceptRegistration_agrees P transactionIndex ledgerHash ledgerIndex networkId
        envelope catalog catalog' h parsed
      dsimp only
      generalize acceptRegistration P transactionIndex ledgerHash ledgerIndex networkId envelope
        catalog parsed = x at hsame ⊢
      generalize acceptRegistration P transactionIndex ledgerHash ledgerIndex networkId envelope
        catalog' parsed = y at hsame ⊢
      cases hsame with
      | error hreason =>
          dsimp only
          rw [show registrationReason _ = _ from hreason]
          exact .rejected _ _
      | ok hacceptance =>
          cases hacceptance with
          | none => exact .rejected _ _
          | some houtcome => exact houtcome

end Interpretation

/-- **One registration comes out alike** over catalogs that agree about the schemas before it. -/
theorem interpretSchemaRegistration_agrees {P : Platform} {transaction : LedgerTransaction}
    {ledgerHash : JsString} {ledgerIndex : ℕ} {profile : NetworkProfile}
    {catalog catalog' : SchemaLookup}
    (h : ∀ publisher, SameBefore
      ⟨profile.networkId, publisher, ledgerIndex, transaction.transactionIndex⟩ catalog catalog') :
    Option.Rel SameRegistration
      (interpretSchemaRegistration P transaction ledgerHash ledgerIndex profile catalog)
      (interpretSchemaRegistration P transaction ledgerHash ledgerIndex profile catalog') := by
  rw [interpretSchemaRegistration, interpretSchemaRegistration]
  cases extractRegistrationEnvelope transaction profile with
  | notRegistration => exact .none
  | rejected publisher reasonCode => exact .some ⟨rfl, rfl, rfl, .rejected _ _⟩
  | candidate envelope => exact .some ⟨rfl, rfl, rfl, interpretEnvelope_agrees (h _)⟩

/-! ## Catalogs that grow -/

/-- The second catalog has every schema of the first, in whatever order of members. -/
def Within (catalog catalog' : SchemaLookup) : Prop :=
  ∀ uid entry, catalog uid = some entry → ∃ entry', catalog' uid = some entry' ∧
    SameEntry entry entry'

/-- The coordinates are not before a place in the ledgers. -/
def NotBefore (ledgerIndex transactionIndex : ℕ) (coordinates : SchemaCoordinates) : Prop :=
  (ledgerIndex : ℤ) < coordinates.ledgerIndex ∨
    coordinates.ledgerIndex = ledgerIndex ∧ (transactionIndex : ℤ) ≤ coordinates.transactionIndex

/-- A catalog has grown by schemas that were registered from a place in the ledgers on. -/
structure ExtendsFrom (ledgerIndex transactionIndex : ℕ) (catalog catalog' : SchemaLookup) :
    Prop where
  includes : Includes catalog catalog'
  later : ∀ uid entry, catalog' uid = some entry → catalog uid = some entry ∨
    NotBefore ledgerIndex transactionIndex entry.toSchemaCoordinates

section Catalogs

variable {a b c : SchemaLookup} {ledgerIndex transactionIndex ledgerIndex' transactionIndex' : ℕ}

theorem Within.trans (hab : Within a b) (hbc : Within b c) : Within a c := by
  intro uid entry hfound
  obtain ⟨entry', hfound', hsame⟩ := hab uid entry hfound
  obtain ⟨entry'', hfound'', hsame'⟩ := hbc uid entry' hfound'
  exact ⟨entry'', hfound'', hsame.trans hsame'⟩

/-- A catalog that includes another one has its schemas, when those can be parsed. -/
theorem Within.includes (hab : Within a b) (hbc : Includes b c) : Within a c := by
  intro uid entry hfound
  obtain ⟨entry', hfound', hsame⟩ := hab uid entry hfound
  exact ⟨entry', hbc uid entry' hfound', hsame⟩

/-- The same schemas are known. -/
theorem Within.isSome_eq (hab : Within a b) (hba : Within b a) (uid : JsString) :
    (a uid).isSome = (b uid).isSome := by
  rw [Bool.eq_iff_iff, Option.isSome_iff_exists, Option.isSome_iff_exists]
  constructor
  · rintro ⟨entry, hfound⟩
    obtain ⟨entry', hfound', -⟩ := hab uid entry hfound
    exact ⟨entry', hfound'⟩
  · rintro ⟨entry, hfound⟩
    obtain ⟨entry', hfound', -⟩ := hba uid entry hfound
    exact ⟨entry', hfound'⟩

/-- One entry more in both. -/
theorem Within.setSchema (hab : Within a b) {entry : RegisteredSchema}
    (hentry : SameEntry entry entry) : Within (setSchema a entry) (setSchema b entry) := by
  intro uid found hfound
  by_cases huid : uid = entry.uid
  · subst huid
    rw [setSchema_self, Option.some.injEq] at hfound
    exact ⟨entry, setSchema_self _ _, hfound ▸ hentry⟩
  · rw [setSchema_of_ne _ huid] at hfound ⊢
    exact hab uid found hfound

/-- One entry more that the other catalog has already. -/
theorem Within.setSchema_left (hab : Within a b) {entry : RegisteredSchema}
    (hentry : SameEntry entry entry) (hfound : b entry.uid = some entry) :
    Within (Indexer.setSchema a entry) b := by
  intro uid found hset
  by_cases huid : uid = entry.uid
  · subst huid
    rw [setSchema_self, Option.some.injEq] at hset
    exact ⟨entry, hfound, hset ▸ hentry⟩
  · rw [setSchema_of_ne _ huid] at hset
    exact hab uid found hset

theorem NotBefore.mono {coordinates : SchemaCoordinates}
    (h : NotBefore ledgerIndex' transactionIndex' coordinates)
    (hle : ledgerIndex < ledgerIndex' ∨
      ledgerIndex = ledgerIndex' ∧ transactionIndex ≤ transactionIndex') :
    NotBefore ledgerIndex transactionIndex coordinates := by
  rw [NotBefore] at h ⊢
  omega

theorem NotBefore.isEarlier_eq {coordinates : SchemaCoordinates}
    (h : NotBefore ledgerIndex transactionIndex coordinates) (networkId : ℤ)
    (publisher : JsString) :
    isEarlier coordinates ⟨networkId, publisher, ledgerIndex, transactionIndex⟩ = false := by
  rw [NotBefore] at h
  simp only [isEarlier, Bool.or_eq_false_iff, Bool.and_eq_false_iff, decide_eq_false_iff_not,
    beq_eq_false_iff_ne]
  omega

theorem ExtendsFrom.refl (a : SchemaLookup) : ExtendsFrom ledgerIndex transactionIndex a a :=
  ⟨fun _ _ h => h, fun _ _ h => Or.inl h⟩

theorem ExtendsFrom.trans (hab : ExtendsFrom ledgerIndex transactionIndex a b)
    (hbc : ExtendsFrom ledgerIndex' transactionIndex' b c)
    (hle : ledgerIndex < ledgerIndex' ∨
      ledgerIndex = ledgerIndex' ∧ transactionIndex ≤ transactionIndex') :
    ExtendsFrom ledgerIndex transactionIndex a c := by
  refine ⟨fun uid entry h => hbc.includes uid entry (hab.includes uid entry h), ?_⟩
  intro uid entry hfound
  rcases hbc.later uid entry hfound with hfound | hlater
  · exact hab.later uid entry hfound
  · exact Or.inr (hlater.mono hle)

/-- A new entry extends a catalog from its own place on. -/
theorem ExtendsFrom.setSchema {entry : RegisteredSchema} (hnew : a entry.uid = none)
    (hplace : NotBefore ledgerIndex transactionIndex entry.toSchemaCoordinates) :
    ExtendsFrom ledgerIndex transactionIndex a (setSchema a entry) := by
  constructor
  · intro uid found hfound
    have hne : uid ≠ entry.uid := by
      rintro rfl
      rw [hnew] at hfound
      cases hfound
    rw [setSchema_of_ne _ hne]
    exact hfound
  · intro uid found hfound
    by_cases huid : uid = entry.uid
    · subst huid
      rw [setSchema_self, Option.some.injEq] at hfound
      exact Or.inr (hfound ▸ hplace)
    · rw [setSchema_of_ne _ huid] at hfound
      exact Or.inl hfound

/-- **A catalog between one and its extension agrees with it** about the schemas before the place
where the extension begins. -/
theorem sameBefore_of_within (hab : Within a b) (hbc : Within b c)
    (hac : ExtendsFrom ledgerIndex transactionIndex a c) (networkId : ℤ) (publisher : JsString) :
    SameBefore ⟨networkId, publisher, ledgerIndex, transactionIndex⟩ b a where
  left := fun uid entry hfound hearlier => by
    obtain ⟨entry', hfound', hsame⟩ := hbc uid entry hfound
    refine ⟨entry', ?_, hsame⟩
    rcases hac.later uid entry' hfound' with hfound'' | hlater
    · exact hfound''
    · rw [hsame.coordinates, hlater.isEarlier_eq] at hearlier
      cases hearlier
  right := fun uid entry hfound _ => hab uid entry hfound

end Catalogs

/-! ## The projection of a ledger -/

/-- The registrations have UIDs that a catalog does not have, and no two of them the same. -/
structure NewUids (catalog : SchemaLookup) (registrations : List SchemaRegistrationResult) :
    Prop where
  nodup : (registrations.filterMap (·.schemaUid)).Nodup
  new : ∀ uid ∈ registrations.filterMap (·.schemaUid), catalog uid = none

/-- An accepted registration is an entry at its place, whose definition can be parsed. -/
theorem catalogEntry_of_schemaUid {P : Platform} {transaction : LedgerTransaction}
    {ledgerHash : JsString} {ledgerIndex : ℕ} {profile : NetworkProfile} {catalog : SchemaLookup}
    {registration : SchemaRegistrationResult}
    (h : interpretSchemaRegistration P transaction ledgerHash ledgerIndex profile catalog
      = some registration) {entry : RegisteredSchema}
    (hentry : catalogEntry profile ledgerIndex registration = some entry) :
    registration.schemaUid = some entry.uid ∧ SameEntry entry entry ∧
      NotBefore ledgerIndex transaction.transactionIndex entry.toSchemaCoordinates := by
  obtain ⟨-, hindex⟩ := place_of_interpretSchemaRegistration h
  have hinterpreted := isInterpreted_of_interpretSchemaRegistration h
  rw [catalogEntry] at hentry
  rw [SchemaRegistrationResult.schemaUid]
  cases houtcome : registration.outcome with
  | rejected => rw [houtcome] at hentry; cases hentry
  | accepted schemaUid memoJson definition resolved =>
      rw [houtcome, Option.some.injEq] at hentry
      subst hentry
      have hparse := parseSchema_toJs (hinterpreted _ _ _ _ houtcome).1
      refine ⟨rfl, ⟨rfl, rfl, definition, definition, hparse, hparse, rfl⟩, Or.inr ⟨rfl, ?_⟩⟩
      rw [hindex]

section Ledger

variable {P : Platform} {ledger : ValidatedLedger} {profile : NetworkProfile}

/-- The catalog after some transactions of a ledger. -/
def catalogAfter (P : Platform) (ledger : ValidatedLedger) (profile : NetworkProfile)
    (transactions : List LedgerTransaction) (catalog : SchemaLookup) : SchemaLookup :=
  recordRegistrations profile ledger.ledgerIndex catalog
    (projectTransactions P ledger profile transactions catalog).1

theorem recordRegistrations_append (catalog : SchemaLookup)
    (xs ys : List SchemaRegistrationResult) :
    recordRegistrations profile ledger.ledgerIndex catalog (xs ++ ys) =
      recordRegistrations profile ledger.ledgerIndex
        (recordRegistrations profile ledger.ledgerIndex catalog xs) ys :=
  List.foldl_append

/-- The catalog after one transaction. -/
def catalogNext (P : Platform) (ledger : ValidatedLedger) (profile : NetworkProfile)
    (catalog : SchemaLookup) (transaction : LedgerTransaction) : SchemaLookup :=
  recordRegistrations profile ledger.ledgerIndex catalog
    (transactionRegistrations P ledger profile catalog transaction)

theorem catalogAfter_cons (transaction : LedgerTransaction) (transactions : List LedgerTransaction)
    (catalog : SchemaLookup) :
    catalogAfter P ledger profile (transaction :: transactions) catalog =
      catalogAfter P ledger profile transactions
        (catalogNext P ledger profile catalog transaction) := by
  rw [catalogAfter, projectTransactions, recordRegistrations_append]
  rfl

/-- One transaction extends a catalog from its own place on, when its UID is new. -/
theorem extendsFrom_next {catalog : SchemaLookup} {transaction : LedgerTransaction}
    (hnew : NewUids catalog (transactionRegistrations P ledger profile catalog transaction)) :
    ExtendsFrom ledger.ledgerIndex transaction.transactionIndex catalog
      (catalogNext P ledger profile catalog transaction) := by
  rw [catalogNext]
  rw [transactionRegistrations] at hnew ⊢
  cases hread : interpretSchemaRegistration P transaction ledger.ledgerHash ledger.ledgerIndex
      profile catalog with
  | none => exact ExtendsFrom.refl _
  | some registration =>
      rw [hread] at hnew
      simp only [Option.toList_some, recordRegistrations, List.foldl_cons, List.foldl_nil,
        recordRegistration]
      cases hentry : catalogEntry profile ledger.ledgerIndex registration with
      | none => exact ExtendsFrom.refl _
      | some entry =>
          obtain ⟨huid, -, hplace⟩ := catalogEntry_of_schemaUid hread hentry
          refine ExtendsFrom.setSchema (hnew.new _ ?_) hplace
          simp [huid]

/-- The new UIDs of a ledger are those of its first transaction and those of the others. -/
theorem NewUids.cons {catalog : SchemaLookup} {transaction : LedgerTransaction}
    {transactions : List LedgerTransaction}
    (h : NewUids catalog
      (projectTransactions P ledger profile (transaction :: transactions) catalog).1) :
    NewUids catalog (transactionRegistrations P ledger profile catalog transaction) ∧
      NewUids (catalogNext P ledger profile catalog transaction)
        (projectTransactions P ledger profile transactions
          (catalogNext P ledger profile catalog transaction)).1 := by
  obtain ⟨hnodup, hnew⟩ := h
  rw [projectTransactions, List.filterMap_append] at hnodup hnew
  obtain ⟨hfirst, hrest, hdisjoint⟩ := List.nodup_append.mp hnodup
  have hnewFirst : NewUids catalog
      (transactionRegistrations P ledger profile catalog transaction) :=
    ⟨hfirst, fun uid huid => hnew uid (List.mem_append_left _ huid)⟩
  refine ⟨hnewFirst, hrest, fun uid huid => ?_⟩
  by_contra hsome
  obtain ⟨entry, hfound⟩ := Option.ne_none_iff_exists'.mp hsome
  have hnone := hnew uid (List.mem_append_right _ huid)
  have hother : uid ∉ (transactionRegistrations P ledger profile catalog transaction).filterMap
      (·.schemaUid) := fun hmem => hdisjoint uid hmem uid huid rfl
  -- An entry that is there now and was not there before is the one of the first transaction.
  rw [catalogNext, transactionRegistrations] at hfound
  rw [transactionRegistrations] at hother
  cases hread : interpretSchemaRegistration P transaction ledger.ledgerHash ledger.ledgerIndex
      profile catalog with
  | none =>
      rw [hread] at hfound
      rw [show catalog uid = some entry from hfound] at hnone
      cases hnone
  | some registration =>
      rw [hread] at hfound hother
      simp only [Option.toList_some, recordRegistrations, List.foldl_cons, List.foldl_nil,
        recordRegistration] at hfound
      cases hentry : catalogEntry profile ledger.ledgerIndex registration with
      | none =>
          rw [hentry] at hfound
          rw [show catalog uid = some entry from hfound] at hnone
          cases hnone
      | some new =>
          rw [hentry] at hfound
          dsimp only at hfound
          by_cases hsame : uid = new.uid
          · obtain ⟨hnewUid, -, -⟩ := catalogEntry_of_schemaUid hread hentry
            exact hother (by simp [hnewUid, hsame])
          · rw [setSchema_of_ne _ hsame, hnone] at hfound
            cases hfound

/-- The transactions of a ledger extend a catalog from the place of the first on. -/
theorem extendsFrom_after {transactions : List LedgerTransaction} {position : ℕ}
    {catalog : SchemaLookup}
    (hpositions : transactions.map (·.transactionIndex)
      = List.range' position transactions.length)
    (hnew : NewUids catalog (projectTransactions P ledger profile transactions catalog).1) :
    ExtendsFrom ledger.ledgerIndex position catalog
      (catalogAfter P ledger profile transactions catalog) := by
  induction transactions generalizing position catalog with
  | nil => exact ExtendsFrom.refl _
  | cons transaction transactions ih =>
      rw [List.map_cons, List.length_cons, List.range'_succ, List.cons.injEq] at hpositions
      obtain ⟨hposition, hpositions⟩ := hpositions
      obtain ⟨hfirst, hrest⟩ := hnew.cons
      rw [catalogAfter_cons]
      have hnext := extendsFrom_next hfirst
      rw [hposition] at hnext
      exact hnext.trans (ih hpositions hrest) (Or.inr ⟨rfl, Nat.le_succ _⟩)

/-- One registration over a catalog between another one and its extension. -/
theorem transactionRegistrations_agrees {a b c : SchemaLookup} {transaction : LedgerTransaction}
    (hab : Within a b) (hbc : Within b c)
    (hac : ExtendsFrom ledger.ledgerIndex transaction.transactionIndex a c) :
    List.Forall₂ SameRegistration (transactionRegistrations P ledger profile b transaction)
      (transactionRegistrations P ledger profile a transaction) := by
  have hsame := @interpretSchemaRegistration_agrees P transaction ledger.ledgerHash
    ledger.ledgerIndex profile b a fun publisher => sameBefore_of_within hab hbc hac _ publisher
  rw [transactionRegistrations, transactionRegistrations]
  generalize interpretSchemaRegistration P transaction ledger.ledgerHash ledger.ledgerIndex profile
    b = x at hsame ⊢
  generalize interpretSchemaRegistration P transaction ledger.ledgerHash ledger.ledgerIndex profile
    a = y at hsame ⊢
  cases hsame with
  | none => exact .nil
  | some h => exact .cons h .nil

/-- Registrations that come out alike are recorded alike. -/
theorem recordRegistrations_agrees {a b : SchemaLookup}
    {registrations registrations' : List SchemaRegistrationResult} (hab : Within a b)
    (hsame : List.Forall₂ SameRegistration registrations' registrations)
    (hentries : ∀ registration ∈ registrations, ∀ entry,
      catalogEntry profile ledger.ledgerIndex registration = some entry → SameEntry entry entry) :
    Within (recordRegistrations profile ledger.ledgerIndex a registrations)
      (recordRegistrations profile ledger.ledgerIndex b registrations') := by
  induction hsame generalizing a b with
  | nil => exact hab
  | @cons registration' registration registrations' registrations hfirst _ ih =>
      rw [List.forall_mem_cons] at hentries
      simp only [recordRegistrations, List.foldl_cons]
      refine ih ?_ hentries.2
      rw [recordRegistration, recordRegistration, hfirst.catalogEntry]
      cases hentry : catalogEntry profile ledger.ledgerIndex registration with
      | none => exact hab
      | some entry => exact hab.setSchema (hentries.1 entry hentry)

/-- Registrations that are in a catalog already are recorded in one that it has. -/
theorem recordRegistrations_within {b c : SchemaLookup}
    {registrations registrations' : List SchemaRegistrationResult} (hbc : Within b c)
    (hsame : List.Forall₂ SameRegistration registrations' registrations)
    (hentries : ∀ registration ∈ registrations, ∀ entry,
      catalogEntry profile ledger.ledgerIndex registration = some entry →
        SameEntry entry entry ∧ c entry.uid = some entry) :
    Within (recordRegistrations profile ledger.ledgerIndex b registrations') c := by
  induction hsame generalizing b with
  | nil => exact hbc
  | @cons registration' registration registrations' registrations hfirst _ ih =>
      rw [List.forall_mem_cons] at hentries
      simp only [recordRegistrations, List.foldl_cons]
      refine ih ?_ hentries.2
      rw [recordRegistration, hfirst.catalogEntry]
      cases hentry : catalogEntry profile ledger.ledgerIndex registration with
      | none => exact hbc
      | some entry =>
          obtain ⟨hself, hfound⟩ := hentries.1 entry hentry
          exact hbc.setSchema_left hself hfound

/-- The entry of a transaction can be parsed, and it is in the catalog after the transaction. -/
theorem entry_of_transaction {a : SchemaLookup} {transaction : LedgerTransaction}
    {registration : SchemaRegistrationResult}
    (hmem : registration ∈ transactionRegistrations P ledger profile a transaction)
    {entry : RegisteredSchema}
    (hentry : catalogEntry profile ledger.ledgerIndex registration = some entry) :
    SameEntry entry entry ∧
      catalogNext P ledger profile a transaction entry.uid = some entry := by
  rw [catalogNext, transactionRegistrations] at *
  rw [Option.mem_toList] at hmem
  obtain ⟨-, hself, -⟩ := catalogEntry_of_schemaUid hmem hentry
  refine ⟨hself, ?_⟩
  rw [show interpretSchemaRegistration P transaction ledger.ledgerHash ledger.ledgerIndex profile a
    = some registration from hmem]
  simp only [Option.toList_some, recordRegistrations, List.foldl_cons, List.foldl_nil,
    recordRegistration, hentry]
  exact setSchema_self _ _

/-- What the projections of some transactions over `b` and over `a` have in common. -/
structure ProjectsAlike (P : Platform) (ledger : ValidatedLedger) (profile : NetworkProfile)
    (transactions : List LedgerTransaction) (a b c : SchemaLookup) : Prop where
  registrations : List.Forall₂ SameRegistration
    (projectTransactions P ledger profile transactions b).1
    (projectTransactions P ledger profile transactions a).1
  after : Within (catalogAfter P ledger profile transactions a)
    (catalogAfter P ledger profile transactions b)
  bounded : Within (catalogAfter P ledger profile transactions b) c
  mutations : Within b a →
    (projectTransactions P ledger profile transactions b).2
        = (projectTransactions P ledger profile transactions a).2 ∧
      Within (catalogAfter P ledger profile transactions b)
        (catalogAfter P ledger profile transactions a)

/-- **The projection of a ledger over a catalog between another one and its extension.** -/
theorem projectTransactions_agrees {transactions : List LedgerTransaction} {position : ℕ}
    {a b c : SchemaLookup}
    (hpositions : transactions.map (·.transactionIndex)
      = List.range' position transactions.length)
    (hnew : NewUids a (projectTransactions P ledger profile transactions a).1)
    (hab : Within a b) (hbc : Within b c)
    (hac : ExtendsFrom ledger.ledgerIndex (position + transactions.length)
      (catalogAfter P ledger profile transactions a) c) :
    ProjectsAlike P ledger profile transactions a b c := by
  induction transactions generalizing position a b with
  | nil => exact ⟨.nil, hab, hbc, fun hba => ⟨rfl, hba⟩⟩
  | cons transaction transactions ih =>
      have hall := (extendsFrom_after hpositions hnew).trans hac
        (Or.inr ⟨rfl, Nat.le_add_right _ _⟩)
      rw [List.map_cons, List.length_cons, List.range'_succ, List.cons.injEq] at hpositions
      obtain ⟨hposition, hpositions⟩ := hpositions
      rw [List.length_cons, catalogAfter_cons, ← Nat.succ_add_eq_add_succ] at hac
      obtain ⟨-, hrest⟩ := hnew.cons
      have hnext := (extendsFrom_after hpositions hrest).trans hac
        (Or.inr ⟨rfl, Nat.le_add_right _ _⟩)
      rw [← hposition] at hall
      have hsame := @transactionRegistrations_agrees P ledger profile a b c transaction hab hbc hall
      have habNext : Within (catalogNext P ledger profile a transaction)
          (catalogNext P ledger profile b transaction) :=
        recordRegistrations_agrees hab hsame fun registration hmem entry hentry =>
          (entry_of_transaction hmem hentry).1
      have hbcNext : Within (catalogNext P ledger profile b transaction) c := by
        refine recordRegistrations_within hbc hsame fun registration hmem entry hentry => ?_
        obtain ⟨hself, hfound⟩ := entry_of_transaction hmem hentry
        exact ⟨hself, hnext.includes _ _ hfound⟩
      have htail := ih hpositions hrest habNext hbcNext hac
      refine ⟨?_, ?_, ?_, fun hba => ?_⟩
      · rw [projectTransactions, projectTransactions]
        exact List.rel_append hsame htail.registrations
      · rw [catalogAfter_cons, catalogAfter_cons]
        exact htail.after
      · rw [catalogAfter_cons]
        exact htail.bounded
      · have hbaNext : Within (catalogNext P ledger profile b transaction)
            (catalogNext P ledger profile a transaction) :=
          recordRegistrations_agrees hba (hsame.flip.imp fun _ _ => SameRegistration.symm)
            fun registration hmem entry hentry => (entry_of_transaction hmem hentry).1
        obtain ⟨hmutations, hback⟩ := htail.mutations hbaNext
        have hknown : (fun uid => (catalogNext P ledger profile b transaction uid).isSome)
            = fun uid => (catalogNext P ledger profile a transaction uid).isSome :=
          funext fun uid => hbaNext.isSome_eq habNext uid
        rw [catalogAfter_cons, catalogAfter_cons]
        refine ⟨?_, hback⟩
        rw [projectTransactions, projectTransactions]
        show (_ ++ _, _ + _) = (_ ++ _, _ + _)
        rw [show (fun uid => (recordRegistrations profile ledger.ledgerIndex b
          (transactionRegistrations P ledger profile b transaction) uid).isSome) = _ from hknown]
        exact congrArg₂ Prod.mk (congrArg _ (congrArg Prod.fst hmutations))
          (congrArg _ (congrArg Prod.snd hmutations))

end Ledger

/-! ## The rows -/

section Rows

variable {P : Platform} {profile : NetworkProfile} {ledger : ValidatedLedger}

/-- What a value becomes in the tables does not depend on the order of its members. -/
theorem plainDatabaseJson_congr {v v' w : JsValue} (h : v.canon = v'.canon) :
    plainDatabaseJson P v = .ok w ↔ plainDatabaseJson P v' = .ok w := by
  rw [plainDatabaseJson_eq_ok, plainDatabaseJson_eq_ok, ← isWritable_canon, h, isWritable_canon]

theorem persistRegistration_agrees {a b : SchemaRegistrationResult} (h : SameRegistration a b)
    {rows rows' : ProjectionRows} :
    persistRegistration P profile ledger a rows = .ok rows' ↔
      persistRegistration P profile ledger b rows = .ok rows' := by
  obtain ⟨hash, index, publisher, outcome⟩ := a
  obtain ⟨hash', index', publisher', outcome'⟩ := b
  obtain ⟨rfl, rfl, rfl, houtcome⟩ := h
  cases houtcome with
  | rejected reasonCode memoJson => exact Iff.rfl
  | accepted hresolved =>
      simp only [persistRegistration, bind_eq_ok]
      refine exists_congr fun memo => and_congr_right fun _ => exists_congr fun between =>
        and_congr_right fun _ => exists_congr fun definitionJson => and_congr_right fun _ =>
        exists_congr fun resolvedJson => ?_
      rw [plainDatabaseJson_congr hresolved]
      exact Iff.rfl

theorem persistRegistrations_agrees {as bs : List SchemaRegistrationResult}
    (h : List.Forall₂ SameRegistration as bs) {rows rows' : ProjectionRows} :
    persistRegistrations P profile ledger as rows = .ok rows' ↔
      persistRegistrations P profile ledger bs rows = .ok rows' := by
  induction h generalizing rows with
  | nil => exact Iff.rfl
  | cons hfirst _ ih =>
      simp only [persistRegistrations, bind_eq_ok]
      exact exists_congr fun between => and_congr (persistRegistration_agrees hfirst) ih

/-- **Projections that come out alike are written alike.** -/
theorem persistProjection_agrees {projection projection' : LedgerProjection}
    (hledger : projection.ledger = projection'.ledger)
    (hregistrations : List.Forall₂ SameRegistration projection.schemaRegistrations
      projection'.schemaRegistrations)
    (hmutations : projection.credentialMutations = projection'.credentialMutations)
    {rows rows' : ProjectionRows} :
    persistProjection P profile projection rows = .ok rows' ↔
      persistProjection P profile projection' rows = .ok rows' := by
  simp only [persistProjection, bind_eq_ok, hledger, hmutations]
  exact exists_congr fun _ => and_congr_right fun _ => exists_congr fun between =>
    and_congr_left fun _ => persistRegistrations_agrees hregistrations

end Rows

end Indexer
end Xcs
