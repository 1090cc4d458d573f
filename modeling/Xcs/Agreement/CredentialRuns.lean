import Xcs.Agreement.ProjectionTables
import Xcs.Web.CredentialTimeline

/-!
# Credentials and their rows

The metadata of the transactions records what happens to the credentials of the ledger.  On the one
side there is the ledger itself: `MetadataStep` is what a node says about its object, by the rules
of the ledger.  On the other side there are the rows that the indexer writes for the nodes of known
schemas.

* `IsLifeOf generation events`: the events are a life, and the generation summarises it.
* `Tracks` is what the rows have to do with the objects: each generation has its life, and one that
  is not deleted has an object in the ledger, with the same fields.
* `Tracks.persistProjection` is the step of a ledger, `tracks_of_indexedUpTo` the run.
-/

namespace Xcs
namespace Agreement

open Js Xcs.Core Db Indexer Web Keyset

/-! ## The ledger -/

/-- A credential of the ledger, with what its nodes list of it. -/
structure CredentialObject where
  issuer : JsValue
  subject : JsValue
  credentialType : JsValue
  uri : JsValue
  expiration : JsValue
  accepted : Bool

/-- The credential as a node lists it. -/
def objectOf (node : NormalizedNode) : CredentialObject where
  issuer := node.fields.get (js "Issuer")
  subject := node.fields.get (js "Subject")
  credentialType := node.fields.get (js "CredentialType")
  uri := node.fields.get (js "URI")
  expiration := node.fields.get (js "Expiration")
  accepted := node.acceptedAfter

/-- The flags of a node are flags. -/
structure ListsFlags (node : NormalizedNode) : Prop where
  flags : isUint32OrUndefined (node.fields.get (js "Flags")) = true
  previousFlags : isUint32OrUndefined (node.previousFields.get (js "Flags")) = true

/-- The credentials of the ledger by the ids of their objects. -/
abbrev LedgerObjects := JsString → Option CredentialObject

/-- Two objects are credentials of one issuer for one subject, of one type. -/
def CredentialObject.SameNames (object other : CredentialObject) : Prop :=
  object.issuer = other.issuer ∧ object.subject = other.subject ∧
    ∃ credentialType otherType, object.credentialType = .str credentialType ∧
      other.credentialType = .str otherType ∧ toLowerCase credentialType = toLowerCase otherType

/-- **What a node of the metadata records.**  There is one credential of an issuer for a subject of
a type at a time, and it is created accepted only when its issuer is its subject; its other fields
stay as they are, it is not withdrawn once it was accepted, and a node of an accepted credential
lists the flags it had before. -/
inductive MetadataStep : LedgerObjects → JsValue → LedgerObjects → Prop
  | other {objects : LedgerObjects} {raw : JsValue} (hread : readNode raw = none) :
      MetadataStep objects raw objects
  | created {objects : LedgerObjects} {raw : JsValue} {node : NormalizedNode}
      (hread : readNode raw = some node) (hflags : ListsFlags node)
      (hkind : node.kind = .createdNode) (hnew : objects node.ledgerObjectId = none)
      (honly : ∀ id object, objects id = some object → ¬object.SameNames (objectOf node))
      (haccepted : node.acceptedAfter = true ↔ (objectOf node).issuer = (objectOf node).subject) :
      MetadataStep objects raw
        (Function.update objects node.ledgerObjectId (some (objectOf node)))
  | modified {objects : LedgerObjects} {raw : JsValue} {node : NormalizedNode}
      {object : CredentialObject} (hread : readNode raw = some node) (hflags : ListsFlags node)
      (hkind : node.kind = .modifiedNode) (hold : objects node.ledgerObjectId = some object)
      (hsame : objectOf node = { object with accepted := node.acceptedAfter })
      (hbefore : node.acceptedBefore = object.accepted)
      (hkept : object.accepted = true → node.acceptedAfter = true)
      (hlisted : node.acceptedAfter = true →
        (node.previousFields.get (js "Flags")).isUndefined = false) :
      MetadataStep objects raw
        (Function.update objects node.ledgerObjectId (some (objectOf node)))
  | deleted {objects : LedgerObjects} {raw : JsValue} {node : NormalizedNode}
      {object : CredentialObject} (hread : readNode raw = some node) (hflags : ListsFlags node)
      (hkind : node.kind = .deletedNode) (hold : objects node.ledgerObjectId = some object)
      (hsame : objectOf node = object) :
      MetadataStep objects raw (Function.update objects node.ledgerObjectId none)

/-- The nodes of a ledger, in the order in which they are read. -/
def ledgerNodes (ledger : ValidatedLedger) : List JsValue :=
  ledger.transactions.flatMap affectedNodes

/-- The nodes of the first ledgers of a chain. -/
def nodesUpTo (profile : NetworkProfile) (chain : ℕ → ValidatedLedger) : ℕ → List JsValue
  | 0 => []
  | n + 1 => nodesUpTo profile chain n ++ ledgerNodes (chain (profile.activationLedgerIndex + n))

/-- What is asked of the ledgers of a chain: their metadata records what happened to the
credentials, from those that were there before on, and a transaction is in one ledger only. -/
structure RecordsCredentials (profile : NetworkProfile) (chain : ℕ → ValidatedLedger) : Prop where
  run : ∃ before, ∀ n, ∃ objects, Run MetadataStep before (nodesUpTo profile chain n) objects
  transactionHashes : ∀ i j, ∀ tx ∈ (chain i).transactions, ∀ tx' ∈ (chain j).transactions,
    tx.hash = tx'.hash → i = j

/-! ## The rows -/

/-- The columns that an event shares with its generation. -/
structure IsEventOf (generation : CredentialGenerationRow) (event : CredentialEventRow) :
    Prop where
  generationId : event.generationId = generation.generationId
  ledgerObjectId : event.ledgerObjectId = generation.ledgerObjectId
  issuer : event.issuer = generation.issuer
  subject : event.subject = generation.subject
  schemaUid : event.schemaUid = generation.schemaUid
  uriHex : event.uriHex = generation.uriHex
  expiration : event.expiration = generation.expiration

/-- The first event of a generation, and what is stored with it. -/
structure IsCreation (generation : CredentialGenerationRow) (event : CredentialEventRow) :
    Prop extends IsEventOf generation event where
  eventType : event.eventType = js "created"
  transactionHash : event.transactionHash = generation.generationId
  ledgerIndex : event.ledgerIndex = generation.createdLedgerIndex
  transactionIndex : event.transactionIndex = generation.createdTransactionIndex
  accepted : event.accepted = generation.accepted
  selfIssued : event.accepted = (event.issuer == event.subject)
  noCause : event.deletionCause = none
  lastLedgerIndex : generation.lastLedgerIndex = generation.createdLedgerIndex
  live : generation.deletedLedgerIndex = none
  noDeletion : generation.deletionCause = none

/-- An event of a live generation, after those it has. -/
structure IsNextEvent (generation : CredentialGenerationRow) (events : List CredentialEventRow)
    (event : CredentialEventRow) : Prop extends IsEventOf generation event where
  live : generation.deletedLedgerIndex = none
  later : ∀ other ∈ events, eventPlace other < eventPlace event

/-- **The life of a credential.**  It is created, it may be accepted when it was not, and it may be
deleted; the generation is updated at each event. -/
inductive IsLifeOf : CredentialGenerationRow → List CredentialEventRow → Prop
  | created {generation : CredentialGenerationRow} {event : CredentialEventRow}
      (hcreation : IsCreation generation event) : IsLifeOf generation [event]
  | accepted {generation : CredentialGenerationRow} {events : List CredentialEventRow}
      {event : CredentialEventRow} (h : IsLifeOf generation events)
      (hnext : IsNextEvent generation events event) (hpending : generation.accepted = false)
      (htype : event.eventType = js "accepted") (haccepted : event.accepted = true)
      (hcause : event.deletionCause = none) :
      IsLifeOf (CredentialGenerationRow.setAccepted event.ledgerIndex generation)
        (events ++ [event])
  | deleted {generation : CredentialGenerationRow} {events : List CredentialEventRow}
      {event : CredentialEventRow} {cause : CredentialDeletionCause}
      (h : IsLifeOf generation events) (hnext : IsNextEvent generation events event)
      (htype : event.eventType = js "deleted") (haccepted : event.accepted = generation.accepted)
      (hcause : event.deletionCause = some cause.text) :
      IsLifeOf (CredentialGenerationRow.setDeleted event.ledgerIndex (some cause) generation)
        (events ++ [event])

/-- A generation is the row of an object: what the node of its creation was checked for. -/
structure IsRowOf (P : Platform) (object : CredentialObject)
    (generation : CredentialGenerationRow) : Prop where
  issuer : object.issuer = .str generation.issuer
  subject : object.subject = .str generation.subject
  credentialType : ∃ credentialType, object.credentialType = .str credentialType ∧
    isHash credentialType = true ∧ toLowerCase credentialType = generation.schemaUid
  uri : ∃ uriHex, object.uri = .str uriHex ∧ generation.uriHex = some uriHex ∧
    hasPayloadUri P uriHex = true
  expiration : isUint32OrUndefined object.expiration = true ∧
    generation.expiration = (uint32 object.expiration).map fun n => (n : ℤ)
  accepted : generation.accepted = object.accepted

/-- The columns of a generation that no constraint of the table is about. -/
structure IsNamed (P : Platform) (generation : CredentialGenerationRow) : Prop where
  issuer : P.isValidClassicAddress generation.issuer = true
  subject : P.isValidClassicAddress generation.subject = true
  uriHex : ∃ uriHex, generation.uriHex = some uriHex ∧ hasPayloadUri P uriHex = true

/-- Two generations are of credentials of one issuer for one subject, of one schema. -/
def SameNames (generation other : CredentialGenerationRow) : Prop :=
  generation.issuer = other.issuer ∧ generation.subject = other.subject ∧
    generation.schemaUid = other.schemaUid

/-- Where a generation was created. -/
def creationPlace (generation : CredentialGenerationRow) : ℤ ×ₗ ℤ :=
  toLex (generation.createdLedgerIndex, generation.createdTransactionIndex)

/-- The events of a generation, in the order in which they were written. -/
def eventsOfGeneration (generationId : JsString) (rows : ProjectionRows) :
    List CredentialEventRow :=
  rows.credentialEvents.filter fun row => row.generationId == generationId

/-- No transaction is at two places. -/
def IsInjective (Q : ℤ → ℤ → JsString → Prop) : Prop :=
  ∀ ledgerIndex transactionIndex ledgerIndex' transactionIndex' hash,
    Q ledgerIndex transactionIndex hash → Q ledgerIndex' transactionIndex' hash →
      ledgerIndex = ledgerIndex' ∧ transactionIndex = transactionIndex'

/-- **What the rows have to do with the objects of the ledger**, before the node at a place is read.
`known` are the UIDs of the schemas known there, and `Q` says which transaction is at a place. -/
structure Tracks (P : Platform) (Q : ℤ → ℤ → JsString → Prop) (known : JsString → Bool)
    (here : ℤ ×ₗ ℤ ×ₗ ℤ) (objects : LedgerObjects) (rows : ProjectionRows) : Prop where
  generationIds : Distinct (·.generationId) rows.credentialGenerations
  lives : ∀ generation ∈ rows.credentialGenerations,
    IsLifeOf generation (eventsOfGeneration generation.generationId rows)
  named : ∀ generation ∈ rows.credentialGenerations, IsNamed P generation
  live : ∀ generation ∈ rows.credentialGenerations, generation.deletedLedgerIndex = none →
    known generation.schemaUid = true ∧ ∃ object,
      objects generation.ledgerObjectId = some object ∧ IsRowOf P object generation
  single : ∀ generation ∈ rows.credentialGenerations, ∀ other ∈ rows.credentialGenerations,
    generation.deletedLedgerIndex = none → other.deletedLedgerIndex = none →
      generation.ledgerObjectId = other.ledgerObjectId → generation = other
  newest : ∀ generation ∈ rows.credentialGenerations, generation.deletedLedgerIndex = none →
    ∀ other ∈ rows.credentialGenerations, SameNames other generation →
      creationPlace other ≤ creationPlace generation
  owned : ∀ event ∈ rows.credentialEvents, ∃ generation ∈ rows.credentialGenerations,
    generation.generationId = event.generationId
  earlier : ∀ event ∈ rows.credentialEvents, eventPlace event < here ∧
    Q event.ledgerIndex event.transactionIndex event.transactionHash

theorem liveGeneration_eq_some {ledgerObjectId : JsString} {rows : ProjectionRows}
    {generation : CredentialGenerationRow}
    (h : liveGeneration ledgerObjectId rows = some generation) :
    generation ∈ rows.credentialGenerations ∧ generation.ledgerObjectId = ledgerObjectId ∧
      generation.deletedLedgerIndex = none := by
  have hmem := List.mem_of_mem_head? (Option.mem_def.mpr h)
  rw [List.mem_insertionSort, List.mem_filter, Bool.and_eq_true, beq_iff_eq,
    Option.isNone_iff_eq_none] at hmem
  exact hmem

/-! ## Nodes and rows -/

section Rows

variable {P : Platform} {object : CredentialObject} {node : NormalizedNode} {raw : JsValue}
  {known : JsString → Bool} {generation : CredentialGenerationRow}

/-- A node of an object that has a row is well formed, and it names what the row does. -/
theorem IsRowOf.wellFormed (h : IsRowOf P object generation) (hnamed : IsNamed P generation)
    (hread : readNode raw = some node) (hflags : ListsFlags node)
    (hsame : objectOf node = { object with accepted := node.acceptedAfter })
    (hknown : known generation.schemaUid = true) :
    ∃ credentialType uriHex, toLowerCase credentialType = generation.schemaUid ∧
      generation.uriHex = some uriHex ∧ WellFormed P known raw node generation.issuer
        generation.subject credentialType uriHex := by
  obtain ⟨credentialType, htype, hhash, huid⟩ := h.credentialType
  obtain ⟨uriHex, huri, hgeneration, hpayload⟩ := h.uri
  refine ⟨credentialType, uriHex, huid, hgeneration, hread, ?_, ?_, ?_⟩
  · exact {
      hasIssuer := (congrArg CredentialObject.issuer hsame).trans h.issuer
      hasSubject := (congrArg CredentialObject.subject hsame).trans h.subject
      hasType := (congrArg CredentialObject.credentialType hsame).trans htype
      validIssuer := hnamed.issuer
      validSubject := hnamed.subject
      isUid := hhash }
  · rw [huid]
    exact hknown
  · have hexpiration := congrArg CredentialObject.expiration hsame
    exact {
      flags := hflags.flags
      expiration := (congrArg isUint32OrUndefined hexpiration).trans h.expiration.1
      previousFlags := hflags.previousFlags
      uri := (congrArg CredentialObject.uri hsame).trans huri
      payload := hpayload }

/-- The row after another node of its object. -/
theorem IsRowOf.next (h : IsRowOf P object generation)
    (hsame : objectOf node = { object with accepted := node.acceptedAfter })
    {generation' : CredentialGenerationRow} (haccepted : generation'.accepted = node.acceptedAfter)
    (hgeneration : generation' = { generation with
      accepted := generation'.accepted, lastLedgerIndex := generation'.lastLedgerIndex }) :
    IsRowOf P (objectOf node) generation' := by
  rw [hgeneration, hsame]
  exact { h with accepted := haccepted }

/-- The row of an object that is created. -/
theorem isRowOf_created {issuer subject credentialType uriHex : JsString}
    (hwell : WellFormed P known raw node issuer subject credentialType uriHex)
    {profile : NetworkProfile} {ledger : ValidatedLedger} {transaction : LedgerTransaction}
    {closeTime nodeIndex : ℕ} {eventType : CredentialEventType} :
    IsRowOf P (objectOf node) (createdGenerationRow profile ledger
      (nodeMutation transaction closeTime nodeIndex node issuer subject
        (toLowerCase credentialType) uriHex eventType)) where
  issuer := hwell.names.hasIssuer
  subject := hwell.names.hasSubject
  credentialType := ⟨credentialType, hwell.names.hasType, hwell.names.isUid, rfl⟩
  uri := ⟨uriHex, hwell.carries.uri, rfl, hwell.carries.payload⟩
  expiration := ⟨hwell.carries.expiration, rfl⟩
  accepted := rfl

theorem isHexBytes_of_hasPayloadUri {uriHex : JsString} (h : hasPayloadUri P uriHex = true) :
    isHexBytes uriHex = true := by
  rw [hasPayloadUri] at h
  rw [isHexBytes, ← isSome_hexToBytes]
  cases hbytes : hexToBytes uriHex with
  | none =>
      rw [hbytes] at h
      cases h
  | some bytes => rfl

theorem isNamed_created {issuer subject credentialType uriHex : JsString}
    (hwell : WellFormed P known raw node issuer subject credentialType uriHex)
    {profile : NetworkProfile} {ledger : ValidatedLedger} {transaction : LedgerTransaction}
    {closeTime nodeIndex : ℕ} {eventType : CredentialEventType} :
    IsNamed P (createdGenerationRow profile ledger
      (nodeMutation transaction closeTime nodeIndex node issuer subject
        (toLowerCase credentialType) uriHex eventType)) where
  issuer := hwell.names.validIssuer
  subject := hwell.names.validSubject
  uriHex := ⟨uriHex, rfl, hwell.carries.payload⟩

/-- The event of a node of an object that has a row. -/
theorem IsRowOf.isEventOf (h : IsRowOf P object generation)
    (hsame : objectOf node = { object with accepted := node.acceptedAfter })
    (hid : generation.ledgerObjectId = node.ledgerObjectId)
    {issuer subject credentialType uriHex : JsString}
    (hwell : WellFormed P known raw node issuer subject credentialType uriHex)
    {profile : NetworkProfile} {ledger : ValidatedLedger} {transaction : LedgerTransaction}
    {closeTime nodeIndex : ℕ} {eventType : CredentialEventType} :
    IsEventOf generation (credentialEventRow profile ledger
      (nodeMutation transaction closeTime nodeIndex node issuer subject
        (toLowerCase credentialType) uriHex eventType) generation.generationId) := by
  obtain ⟨credentialType', htype, -, huid⟩ := h.credentialType
  obtain ⟨uriHex', huri, hgeneration, -⟩ := h.uri
  have hissuer := hwell.names.hasIssuer.symm.trans
    ((congrArg CredentialObject.issuer hsame).trans h.issuer)
  have hsubject := hwell.names.hasSubject.symm.trans
    ((congrArg CredentialObject.subject hsame).trans h.subject)
  have htype' := hwell.names.hasType.symm.trans
    ((congrArg CredentialObject.credentialType hsame).trans htype)
  have huri' := hwell.carries.uri.symm.trans ((congrArg CredentialObject.uri hsame).trans huri)
  have hexpiration := congrArg CredentialObject.expiration hsame
  exact {
    generationId := rfl
    ledgerObjectId := hid.symm
    issuer := JsValue.str.inj hissuer
    subject := JsValue.str.inj hsubject
    schemaUid := by
      rw [← huid, ← JsValue.str.inj htype']
      rfl
    uriHex := by
      rw [hgeneration, ← JsValue.str.inj huri']
      rfl
    expiration := by
      rw [h.expiration.2]
      exact congrArg (fun v => (uint32 v).map fun n => (n : ℤ)) hexpiration }

end Rows

/-! ## Writing an event -/

section Write

variable {P : Platform} {Q : ℤ → ℤ → JsString → Prop} {known : JsString → Bool}
  {here : ℤ ×ₗ ℤ ×ₗ ℤ} {objects : LedgerObjects} {rows rows' : ProjectionRows}

theorem Tracks.mono (h : Tracks P Q known here objects rows) {known' : JsString → Bool}
    (hknown : ∀ uid, known uid = true → known' uid = true) {here' : ℤ ×ₗ ℤ ×ₗ ℤ}
    (hhere : here ≤ here') : Tracks P Q known' here' objects rows :=
  { h with
    live := fun generation hmem hlive =>
      ⟨hknown _ (h.live generation hmem hlive).1, (h.live generation hmem hlive).2⟩
    earlier := fun event hmem =>
      ⟨(h.earlier event hmem).1.trans_le hhere, (h.earlier event hmem).2⟩ }

theorem Tracks.places (h : Tracks P Q known here objects rows)
    {R : ℤ → ℤ → JsString → Prop} (hQR : ∀ ledgerIndex transactionIndex hash,
      Q ledgerIndex transactionIndex hash → R ledgerIndex transactionIndex hash) :
    Tracks P R known here objects rows :=
  { h with
    earlier := fun event hmem =>
      ⟨(h.earlier event hmem).1, hQR _ _ _ (h.earlier event hmem).2⟩ }

theorem eventsOfGeneration_of_eq {event : CredentialEventRow}
    (hevents : rows'.credentialEvents = rows.credentialEvents ++ [event]) :
    eventsOfGeneration event.generationId rows'
      = eventsOfGeneration event.generationId rows ++ [event] := by
  rw [eventsOfGeneration, hevents, List.filter_append, List.filter_cons_of_pos, List.filter_nil]
  · rfl
  · exact beq_self_eq_true _

theorem eventsOfGeneration_of_ne {event : CredentialEventRow} {generationId : JsString}
    (hne : event.generationId ≠ generationId)
    (hevents : rows'.credentialEvents = rows.credentialEvents ++ [event]) :
    eventsOfGeneration generationId rows' = eventsOfGeneration generationId rows := by
  rw [eventsOfGeneration, hevents, List.filter_append, List.filter_cons_of_neg, List.filter_nil,
    List.append_nil]
  · rfl
  · rw [beq_iff_eq]
    exact hne

/-- An event with a place of its own is written. -/
theorem Tracks.insertCredentialEvent (h : Tracks P Q known here objects rows)
    (hQ : IsInjective Q)
    {generations : List CredentialGenerationRow} {event : CredentialEventRow}
    (hplace : Q event.ledgerIndex event.transactionIndex event.transactionHash)
    (hevent : eventPlace event = here)
    (hinsert : insertCredentialEvent event
      { rows with credentialGenerations := generations } = .ok rows') :
    rows'.credentialEvents = rows.credentialEvents ++ [event] ∧
      rows'.credentialGenerations = generations := by
  obtain ⟨-, -, ⟨⟨other, hother, hhash, hnode⟩, -⟩ | ⟨-, -, -, -, rfl⟩⟩ :=
    insertCredentialEvent_eq_ok.mp hinsert
  · obtain ⟨hearlier, hplace'⟩ := h.earlier other hother
    rw [hhash] at hplace'
    obtain ⟨hledger, htransaction⟩ := hQ _ _ _ _ _ hplace' hplace
    refine absurd hearlier ?_
    rw [← hevent, eventPlace, eventPlace, hledger, htransaction, hnode]
    exact lt_irrefl _
  · exact ⟨rfl, rfl⟩

theorem creationPlace_le_of_lt {event next : CredentialEventRow}
    (h : eventPlace event < eventPlace next) :
    toLex (event.ledgerIndex, event.transactionIndex)
      ≤ toLex (next.ledgerIndex, next.transactionIndex) := by
  rw [eventPlace, eventPlace, Prod.Lex.toLex_lt_toLex, Prod.Lex.toLex_lt_toLex] at h
  rw [Prod.Lex.toLex_le_toLex]
  rcases h with hledger | ⟨hledger, htransaction | ⟨htransaction, -⟩⟩
  · exact Or.inl hledger
  · exact Or.inr ⟨hledger, le_of_lt htransaction⟩
  · exact Or.inr ⟨hledger, le_of_eq htransaction⟩

/-- A generation was created where its first event is. -/
theorem IsLifeOf.creationPlace {generation : CredentialGenerationRow}
    {events : List CredentialEventRow} (h : IsLifeOf generation events) :
    ∃ event ∈ events, creationPlace generation
      = toLex (event.ledgerIndex, event.transactionIndex) := by
  induction h with
  | @created generation event hcreation =>
      refine ⟨event, List.mem_singleton_self _, ?_⟩
      rw [Agreement.creationPlace, hcreation.ledgerIndex, hcreation.transactionIndex]
  | accepted h hnext hpending htype haccepted hcause ih =>
      obtain ⟨event, hevent, hplace⟩ := ih
      exact ⟨event, List.mem_append_left _ hevent, hplace⟩
  | deleted h hnext htype haccepted hcause ih =>
      obtain ⟨event, hevent, hplace⟩ := ih
      exact ⟨event, List.mem_append_left _ hevent, hplace⟩

/-- Every generation that is there was created before. -/
theorem Tracks.creationPlace_le (h : Tracks P Q known here objects rows)
    {other : CredentialGenerationRow} (hother : other ∈ rows.credentialGenerations)
    {event : CredentialEventRow} (hevent : eventPlace event = here) :
    creationPlace other ≤ toLex (event.ledgerIndex, event.transactionIndex) := by
  obtain ⟨first, hfirst, hplace⟩ := (h.lives other hother).creationPlace
  rw [hplace]
  refine creationPlace_le_of_lt ?_
  rw [hevent]
  exact (h.earlier first (List.mem_of_mem_filter hfirst)).1

/-- The rows of objects with different names have different names. -/
theorem IsRowOf.sameNames {object other : CredentialObject}
    {generation otherGeneration : CredentialGenerationRow} (h : IsRowOf P object generation)
    (h' : IsRowOf P other otherGeneration) (hsame : SameNames generation otherGeneration) :
    object.SameNames other := by
  obtain ⟨hissuer, hsubject, hschema⟩ := hsame
  obtain ⟨credentialType, htype, -, huid⟩ := h.credentialType
  obtain ⟨otherType, htype', -, huid'⟩ := h'.credentialType
  refine ⟨?_, ?_, credentialType, otherType, htype, htype', ?_⟩
  · rw [h.issuer, h'.issuer, hissuer]
  · rw [h.subject, h'.subject, hsubject]
  · rw [huid, huid', hschema]

/-- A new generation with its first event. -/
theorem Tracks.create (h : Tracks P Q known here objects rows)
    {generation : CredentialGenerationRow} {event : CredentialEventRow} {object : CredentialObject}
    (hnew : objects generation.ledgerObjectId = none)
    (honly : ∀ id other, objects id = some other → ¬other.SameNames object)
    (hid : ∀ other ∈ rows.credentialGenerations, other.generationId ≠ generation.generationId)
    (hcreation : IsCreation generation event) (hrow : IsRowOf P object generation)
    (hnamed : IsNamed P generation) (hknown : known generation.schemaUid = true)
    {here' : ℤ ×ₗ ℤ ×ₗ ℤ} (hhere : here < here') (hevent : eventPlace event = here)
    (hplace : Q event.ledgerIndex event.transactionIndex event.transactionHash)
    (hevents : rows'.credentialEvents = rows.credentialEvents ++ [event])
    (hgenerations : rows'.credentialGenerations = rows.credentialGenerations ++ [generation]) :
    Tracks P Q known here'
      (Function.update objects generation.ledgerObjectId (some object)) rows' := by
  have hother : ∀ other ∈ rows.credentialGenerations, other.deletedLedgerIndex = none →
      other.ledgerObjectId ≠ generation.ledgerObjectId := by
    intro other hother hlive hsame
    obtain ⟨-, object', hobject, -⟩ := h.live other hother hlive
    rw [hsame, hnew] at hobject
    cases hobject
  have htable : IsTable (IsNamed P) (·.generationId)
      (rows.credentialGenerations ++ [generation]) :=
    IsTable.snoc ⟨h.named, h.generationIds⟩ hnamed hid
  have hold : ∀ other ∈ rows.credentialGenerations,
      eventsOfGeneration other.generationId rows' = eventsOfGeneration other.generationId rows := by
    intro other hother
    refine eventsOfGeneration_of_ne ?_ hevents
    rw [hcreation.generationId]
    exact (hid other hother).symm
  have hfirst : eventsOfGeneration generation.generationId rows' = [event] := by
    have hnone : eventsOfGeneration generation.generationId rows = [] := by
      rw [eventsOfGeneration, List.filter_eq_nil_iff]
      intro other hmem hsame
      obtain ⟨owner, howner, hownerId⟩ := h.owned other hmem
      exact hid owner howner (hownerId.trans (beq_iff_eq.mp hsame))
    have happend := eventsOfGeneration_of_eq hevents
    rw [hcreation.generationId, hnone, List.nil_append] at happend
    exact happend
  constructor
  · rw [hgenerations]
    exact htable.keys
  · rw [hgenerations, List.forall_mem_append, List.forall_mem_singleton, hfirst]
    refine ⟨fun other hmem => ?_, .created hcreation⟩
    rw [hold other hmem]
    exact h.lives other hmem
  · rw [hgenerations]
    exact htable.every
  · rw [hgenerations, List.forall_mem_append, List.forall_mem_singleton]
    refine ⟨fun other hmem hlive => ?_, fun _ => ⟨hknown, object, ?_, hrow⟩⟩
    · rw [Function.update_of_ne (hother other hmem hlive)]
      exact h.live other hmem hlive
    · exact Function.update_self ..
  · rw [hgenerations]
    simp only [List.forall_mem_append, List.forall_mem_singleton]
    refine ⟨fun other hmem => ⟨h.single other hmem, fun hlive _ hsame => ?_⟩,
      fun other hmem _ hlive hsame => ?_, fun _ _ _ => trivial⟩
    · exact absurd hsame (hother other hmem hlive)
    · exact absurd hsame.symm (hother other hmem hlive)
  · rw [hgenerations]
    simp only [List.forall_mem_append, List.forall_mem_singleton]
    refine ⟨fun other hmem hlive => ⟨h.newest other hmem hlive, fun hsame => ?_⟩,
      fun _ => ⟨fun other hmem _ => ?_, fun _ => le_rfl⟩⟩
    · obtain ⟨-, found, hfound, hfoundRow⟩ := h.live other hmem hlive
      exact absurd (hfoundRow.sameNames hrow ⟨hsame.1.symm, hsame.2.1.symm, hsame.2.2.symm⟩)
        (honly _ found hfound)
    · have hplace := h.creationPlace_le hmem hevent
      rw [hcreation.ledgerIndex, hcreation.transactionIndex] at hplace
      exact hplace
  · rw [hevents, List.forall_mem_append, List.forall_mem_singleton, hgenerations]
    refine ⟨fun other hmem => ?_, generation, ?_, hcreation.generationId.symm⟩
    · obtain ⟨owner, howner, hownerId⟩ := h.owned other hmem
      exact ⟨owner, List.mem_append_left _ howner, hownerId⟩
    · exact List.mem_append_right _ (List.mem_singleton_self _)
  · rw [hevents, List.forall_mem_append, List.forall_mem_singleton]
    refine ⟨fun other hmem => ?_, ?_, hplace⟩
    · exact ⟨(h.earlier other hmem).1.trans hhere, (h.earlier other hmem).2⟩
    · rw [hevent]
      exact hhere

/-- An update of generations that leaves alone what they were created with. -/
structure IsUpdate (set : CredentialGenerationRow → CredentialGenerationRow) : Prop where
  generationId : ∀ row, (set row).generationId = row.generationId
  ledgerObjectId : ∀ row, (set row).ledgerObjectId = row.ledgerObjectId
  issuer : ∀ row, (set row).issuer = row.issuer
  subject : ∀ row, (set row).subject = row.subject
  schemaUid : ∀ row, (set row).schemaUid = row.schemaUid
  uriHex : ∀ row, (set row).uriHex = row.uriHex
  creationPlace : ∀ row, creationPlace (set row) = creationPlace row

theorem IsUpdate.isNamed {set : CredentialGenerationRow → CredentialGenerationRow}
    (hset : IsUpdate set) {row : CredentialGenerationRow} (h : IsNamed P row) :
    IsNamed P (set row) where
  issuer := by rw [hset.issuer]; exact h.issuer
  subject := by rw [hset.subject]; exact h.subject
  uriHex := by rw [hset.uriHex]; exact h.uriHex

/-- An update of one row. -/
theorem IsUpdate.ite {set : CredentialGenerationRow → CredentialGenerationRow}
    (hset : IsUpdate set) (p : CredentialGenerationRow → Prop) [DecidablePred p] :
    IsUpdate fun row => if p row then set row else row := by
  constructor
  · exact fun row => by split_ifs; exacts [hset.generationId row, rfl]
  · exact fun row => by split_ifs; exacts [hset.ledgerObjectId row, rfl]
  · exact fun row => by split_ifs; exacts [hset.issuer row, rfl]
  · exact fun row => by split_ifs; exacts [hset.subject row, rfl]
  · exact fun row => by split_ifs; exacts [hset.schemaUid row, rfl]
  · exact fun row => by split_ifs; exacts [hset.uriHex row, rfl]
  · exact fun row => by split_ifs; exacts [hset.creationPlace row, rfl]

theorem isUpdate_setAccepted (ledgerIndex : ℤ) :
    IsUpdate (CredentialGenerationRow.setAccepted ledgerIndex) :=
  ⟨fun _ => rfl, fun _ => rfl, fun _ => rfl, fun _ => rfl, fun _ => rfl, fun _ => rfl,
    fun _ => rfl⟩

theorem isUpdate_setDeleted (ledgerIndex : ℤ) (cause : Option CredentialDeletionCause) :
    IsUpdate (CredentialGenerationRow.setDeleted ledgerIndex cause) :=
  ⟨fun _ => rfl, fun _ => rfl, fun _ => rfl, fun _ => rfl, fun _ => rfl, fun _ => rfl,
    fun _ => rfl⟩

/-- The next event of a live generation, which is updated. -/
theorem Tracks.update (h : Tracks P Q known here objects rows)
    {generation : CredentialGenerationRow} (hmem : generation ∈ rows.credentialGenerations)
    (hlive : generation.deletedLedgerIndex = none)
    {set : CredentialGenerationRow → CredentialGenerationRow} (hset : IsUpdate set)
    {event : CredentialEventRow}
    (hlife : IsLifeOf (set generation) (eventsOfGeneration generation.generationId rows ++ [event]))
    (hid : event.generationId = generation.generationId) {object : Option CredentialObject}
    (hobject : (set generation).deletedLedgerIndex = none →
      ∃ found, object = some found ∧ IsRowOf P found (set generation))
    {here' : ℤ ×ₗ ℤ ×ₗ ℤ} (hhere : here < here') (hevent : eventPlace event = here)
    (hplace : Q event.ledgerIndex event.transactionIndex event.transactionHash)
    (hevents : rows'.credentialEvents = rows.credentialEvents ++ [event])
    (hgenerations : rows'.credentialGenerations = rows.credentialGenerations.map fun row =>
      if row.generationId = generation.generationId then set row else row) :
    Tracks P Q known here' (Function.update objects generation.ledgerObjectId object) rows' := by
  have hunique : ∀ row ∈ rows.credentialGenerations,
      row.generationId = generation.generationId → row = generation := fun row hrow hsame =>
    List.inj_on_of_nodup_map h.generationIds hrow hmem hsame
  have hwhole := hset.ite fun row => row.generationId = generation.generationId
  have htable := IsTable.update (⟨h.named, h.generationIds⟩ : IsTable (IsNamed P) _ _)
    (fun row _ hrow => hwhole.isNamed hrow) hwhole.generationId
  -- A row that is live was live.
  have hbefore : ∀ row ∈ rows.credentialGenerations,
      (if row.generationId = generation.generationId then set row
        else row).deletedLedgerIndex = none → row.deletedLedgerIndex = none := by
    intro row hrow hafter
    split_ifs at hafter with hsame
    · rw [hunique row hrow hsame]
      exact hlive
    · exact hafter
  constructor
  · rw [hgenerations]
    exact htable.keys
  · rw [hgenerations]
    intro row hupdated
    obtain ⟨row, hrow, rfl⟩ := List.mem_map.mp hupdated
    rw [hwhole.generationId row]
    split_ifs with hsame
    · have happend := eventsOfGeneration_of_eq hevents
      rw [hid] at happend
      rw [hunique row hrow hsame, happend]
      exact hlife
    · rw [eventsOfGeneration_of_ne (fun heq => hsame (heq.symm.trans hid)) hevents]
      exact h.lives row hrow
  · rw [hgenerations]
    exact htable.every
  · rw [hgenerations]
    intro row hupdated hafter
    obtain ⟨row, hrow, rfl⟩ := List.mem_map.mp hupdated
    split_ifs at hafter ⊢ with hsame
    · rw [hunique row hrow hsame] at hafter ⊢
      obtain ⟨found, hfound, hfoundRow⟩ := hobject hafter
      rw [hset.ledgerObjectId, hset.schemaUid, Function.update_self]
      exact ⟨(h.live generation hmem hlive).1, found, hfound, hfoundRow⟩
    · rw [Function.update_of_ne]
      · exact h.live row hrow hafter
      · intro hobjectId
        exact hsame (congrArg _ (h.single row hrow generation hmem hafter hlive hobjectId))
  · rw [hgenerations]
    intro row hupdated other hupdated' hafter hafter' hobjectId
    obtain ⟨row, hrow, rfl⟩ := List.mem_map.mp hupdated
    obtain ⟨other, hother, rfl⟩ := List.mem_map.mp hupdated'
    rw [hwhole.ledgerObjectId row, hwhole.ledgerObjectId other] at hobjectId
    rw [h.single row hrow other hother (hbefore row hrow hafter) (hbefore other hother hafter')
      hobjectId]
  · rw [hgenerations]
    rintro row hupdated hafter other hupdated' ⟨hissuer, hsubject, hschema⟩
    obtain ⟨row, hrow, rfl⟩ := List.mem_map.mp hupdated
    obtain ⟨other, hother, rfl⟩ := List.mem_map.mp hupdated'
    rw [hwhole.issuer row, hwhole.issuer other] at hissuer
    rw [hwhole.subject row, hwhole.subject other] at hsubject
    rw [hwhole.schemaUid row, hwhole.schemaUid other] at hschema
    rw [hwhole.creationPlace row, hwhole.creationPlace other]
    exact h.newest row hrow (hbefore row hrow hafter) other hother ⟨hissuer, hsubject, hschema⟩
  · rw [hevents, List.forall_mem_append, List.forall_mem_singleton, hgenerations]
    have hmap : ∀ row ∈ rows.credentialGenerations, ∃ row' ∈ rows.credentialGenerations.map
        (fun row => if row.generationId = generation.generationId then set row else row),
          row'.generationId = row.generationId :=
      fun row hrow => ⟨_, List.mem_map_of_mem hrow, hwhole.generationId row⟩
    refine ⟨fun other hother => ?_, ?_⟩
    · obtain ⟨owner, howner, hownerId⟩ := h.owned other hother
      obtain ⟨row', hrow', hrowId⟩ := hmap owner howner
      exact ⟨row', hrow', hrowId.trans hownerId⟩
    · obtain ⟨row', hrow', hrowId⟩ := hmap generation hmem
      exact ⟨row', hrow', hrowId.trans hid.symm⟩
  · rw [hevents, List.forall_mem_append, List.forall_mem_singleton]
    refine ⟨fun other hother => ?_, ?_, hplace⟩
    · exact ⟨(h.earlier other hother).1.trans hhere, (h.earlier other hother).2⟩
    · rw [hevent]
      exact hhere

/-- An object without a live generation changes. -/
theorem Tracks.ignore (h : Tracks P Q known here objects rows) {ledgerObjectId : JsString}
    (hnone : ∀ generation ∈ rows.credentialGenerations, generation.deletedLedgerIndex = none →
      generation.ledgerObjectId ≠ ledgerObjectId) (object : Option CredentialObject) :
    Tracks P Q known here (Function.update objects ledgerObjectId object) rows :=
  { h with
    live := fun generation hmem hlive => by
      rw [Function.update_of_ne (hnone generation hmem hlive)]
      exact h.live generation hmem hlive }

end Write

/-! ## Reading a node -/

section Generation

variable {profile : NetworkProfile} {ledger : ValidatedLedger} {mutation : CredentialMutation}
  {generationId : JsString} {rows rows' : ProjectionRows}
  (h : persistGeneration profile ledger mutation rows = .ok (generationId, rows'))

include h

theorem persistGeneration_of_created (htype : mutation.eventType = .created) :
    generationId = mutation.transactionHash ∧
      insertCredentialGeneration (createdGenerationRow profile ledger mutation) rows
        = .ok rows' := by
  rw [persistGeneration.eq_def, htype] at h
  simp only [bind_eq_ok, pure_eq_ok, Prod.mk.injEq] at h
  obtain ⟨_, hinsert, rfl, rfl⟩ := h
  exact ⟨rfl, hinsert⟩

theorem persistGeneration_of_accepted (htype : mutation.eventType = .accepted) :
    ∃ live, liveGeneration mutation.ledgerObjectId rows = some live ∧
      generationId = live.generationId ∧
      updateCredentialGeneration live.generationId
        (CredentialGenerationRow.setAccepted ledger.ledgerIndex) rows = .ok rows' := by
  rw [persistGeneration.eq_def, htype] at h
  cases hlive : liveGeneration mutation.ledgerObjectId rows with
  | none =>
      rw [hlive] at h
      cases h
  | some live =>
      rw [hlive] at h
      simp only [bind_eq_ok, pure_eq_ok, Prod.mk.injEq] at h
      obtain ⟨_, hupdate, rfl, rfl⟩ := h
      exact ⟨live, rfl, rfl, hupdate⟩

theorem persistGeneration_of_deleted (htype : mutation.eventType = .deleted) :
    ∃ live, liveGeneration mutation.ledgerObjectId rows = some live ∧
      generationId = live.generationId ∧
      updateCredentialGeneration live.generationId
        (CredentialGenerationRow.setDeleted ledger.ledgerIndex mutation.deletionCause) rows
          = .ok rows' := by
  rw [persistGeneration.eq_def, htype] at h
  cases hlive : liveGeneration mutation.ledgerObjectId rows with
  | none =>
      rw [hlive] at h
      cases h
  | some live =>
      rw [hlive] at h
      simp only [bind_eq_ok, pure_eq_ok, Prod.mk.injEq] at h
      obtain ⟨_, hupdate, rfl, rfl⟩ := h
      exact ⟨live, rfl, rfl, hupdate⟩

end Generation

/-- The place of a node. -/
def placeOf (ledger : ValidatedLedger) (transactionIndex nodeIndex : ℕ) : ℤ ×ₗ ℤ ×ₗ ℤ :=
  toLex ((ledger.ledgerIndex : ℤ), toLex ((transactionIndex : ℤ), (nodeIndex : ℤ)))

theorem placeOf_lt_succ (ledger : ValidatedLedger) (transactionIndex nodeIndex : ℕ) :
    placeOf ledger transactionIndex nodeIndex
      < placeOf ledger transactionIndex (nodeIndex + 1) := by
  refine Prod.Lex.toLex_lt_toLex.mpr (Or.inr ⟨rfl, ?_⟩)
  refine Prod.Lex.toLex_lt_toLex.mpr (Or.inr ⟨rfl, ?_⟩)
  exact Int.ofNat_lt.mpr (Nat.lt_succ_self nodeIndex)

/-- The next transaction comes after every node of one. -/
theorem placeOf_le_next (ledger : ValidatedLedger) (transactionIndex nodeIndex : ℕ) :
    placeOf ledger transactionIndex nodeIndex ≤ placeOf ledger (transactionIndex + 1) 0 := by
  refine Prod.Lex.toLex_le_toLex.mpr (Or.inr ⟨rfl, ?_⟩)
  refine Prod.Lex.toLex_le_toLex.mpr (Or.inl ?_)
  exact Int.ofNat_lt.mpr (Nat.lt_succ_self transactionIndex)

section Node

variable {P : Platform} {Q : ℤ → ℤ → JsString → Prop} {known : JsString → Bool}
  {profile : NetworkProfile} {ledger : ValidatedLedger} {transaction : LedgerTransaction}
  {closeTime nodeIndex : ℕ} {raw : JsValue} {here : ℤ ×ₗ ℤ ×ₗ ℤ} {objects objects' : LedgerObjects}
  {rows rows' : ProjectionRows}

/-- The events of a modified node are the acceptances. -/
theorem accepts_of_modified {node : NormalizedNode} (hkind : node.kind = .modifiedNode)
    (hlisted : node.acceptedAfter = true →
      (node.previousFields.get (js "Flags")).isUndefined = false)
    {eventType : CredentialEventType} :
    nodeEventType node = some eventType ↔
      eventType = .accepted ∧ node.acceptedBefore = false ∧ node.acceptedAfter = true := by
  rw [nodeEventType_eq_some fun _ => hlisted]
  cases eventType with
  | created => simp [EventOf, hkind]
  | accepted => simp [EventOf, hkind]
  | deleted => simp [EventOf, hkind]

/-- **A node that is a mutation**, written. -/
theorem Tracks.readMutation (hQ : IsInjective Q)
    (hplace : Q ledger.ledgerIndex transaction.transactionIndex transaction.hash)
    (h : Tracks P Q known (placeOf ledger transaction.transactionIndex nodeIndex) objects rows)
    (hstep : MetadataStep objects raw objects') {mutation : CredentialMutation}
    (hmutation : interpretNode P transaction closeTime known nodeIndex raw = .mutation mutation)
    (hpersist : persistCredentialMutation profile ledger mutation rows = .ok rows') :
    Tracks P Q known (placeOf ledger transaction.transactionIndex (nodeIndex + 1)) objects'
      rows' := by
  obtain ⟨node, issuer, subject, credentialType, uriHex, eventType, hwell, hevent, rfl⟩ :=
    interpretNode_eq_mutation.mp hmutation
  simp only [persistCredentialMutation, bind_eq_ok, Prod.exists] at hpersist
  obtain ⟨generationId, between, hgeneration, hinsert⟩ := hpersist
  have hlt := placeOf_lt_succ ledger transaction.transactionIndex nodeIndex
  cases hstep with
  | other hread =>
      rw [hwell.read] at hread
      cases hread
  | created hread hflags hkind hnew honly haccepted =>
      obtain rfl := Option.some.inj (hwell.read.symm.trans hread)
      have htype : eventType = .created := by
        rw [nodeEventType, hkind] at hevent
        exact (Option.some.inj hevent).symm
      subst htype
      obtain ⟨rfl, hcreate⟩ := persistGeneration_of_created hgeneration rfl
      obtain ⟨-, -, hids, -, -, -, rfl⟩ := insertCredentialGeneration_eq_ok.mp hcreate
      obtain ⟨hevents, hgenerations⟩ := h.insertCredentialEvent hQ hplace rfl hinsert
      refine h.create hnew honly hids ?_ (isRowOf_created hwell) (isNamed_created hwell)
        hwell.known hlt rfl hplace hevents hgenerations
      have hself : node.acceptedAfter = (issuer == subject) := by
        rw [show (objectOf node).issuer = .str issuer from hwell.names.hasIssuer,
          show (objectOf node).subject = .str subject from hwell.names.hasSubject,
          JsValue.str.injEq] at haccepted
        rw [Bool.eq_iff_iff, haccepted, beq_iff_eq]
      exact {
        generationId := rfl
        ledgerObjectId := rfl
        issuer := rfl
        subject := rfl
        schemaUid := rfl
        uriHex := rfl
        expiration := rfl
        eventType := rfl
        transactionHash := rfl
        ledgerIndex := rfl
        transactionIndex := rfl
        accepted := rfl
        selfIssued := hself
        noCause := rfl
        lastLedgerIndex := rfl
        live := rfl
        noDeletion := rfl }
  | modified hread hflags hkind hold hsame hbefore hkept hlisted =>
      obtain rfl := Option.some.inj (hwell.read.symm.trans hread)
      obtain ⟨rfl, hnot, hafter⟩ := (accepts_of_modified hkind hlisted).mp hevent
      obtain ⟨live, hlive, rfl, hupdate⟩ := persistGeneration_of_accepted hgeneration rfl
      obtain ⟨hmem, hobjectId, hdeleted⟩ := liveGeneration_eq_some hlive
      obtain ⟨hknown, object, hobject, hrow⟩ := h.live live hmem hdeleted
      have hsameObject := hobject.symm.trans ((congrArg objects hobjectId).trans hold)
      obtain rfl := Option.some.inj hsameObject
      obtain ⟨-, rfl⟩ := updateCredentialGeneration_eq_ok.mp hupdate
      obtain ⟨hevents, hgenerations⟩ := h.insertCredentialEvent hQ hplace rfl hinsert
      have hnext : IsNextEvent live (eventsOfGeneration live.generationId rows)
          (credentialEventRow profile ledger (nodeMutation transaction closeTime nodeIndex node
            issuer subject (toLowerCase credentialType) uriHex .accepted) live.generationId) :=
        { toIsEventOf := hrow.isEventOf hsame hobjectId hwell
          live := hdeleted
          later := fun other hother => (h.earlier other (List.mem_of_mem_filter hother)).1 }
      have hpending : live.accepted = false := by
        rw [hrow.accepted, ← hbefore]
        exact hnot
      rw [show node.ledgerObjectId = live.ledgerObjectId from hobjectId.symm]
      exact h.update hmem hdeleted (isUpdate_setAccepted _)
        (.accepted (h.lives live hmem) hnext hpending rfl hafter rfl) rfl
        (fun _ => ⟨_, rfl, hrow.next hsame hafter.symm rfl⟩) hlt rfl hplace hevents hgenerations
  | deleted hread hflags hkind hold hsame =>
      obtain rfl := Option.some.inj (hwell.read.symm.trans hread)
      have htype : eventType = .deleted := by
        rw [nodeEventType, hkind] at hevent
        exact (Option.some.inj hevent).symm
      subst htype
      obtain ⟨live, hlive, rfl, hupdate⟩ := persistGeneration_of_deleted hgeneration rfl
      obtain ⟨hmem, hobjectId, hdeleted⟩ := liveGeneration_eq_some hlive
      obtain ⟨hknown, object, hobject, hrow⟩ := h.live live hmem hdeleted
      have hsameObject := hobject.symm.trans ((congrArg objects hobjectId).trans hold)
      obtain rfl := Option.some.inj hsameObject
      obtain ⟨-, rfl⟩ := updateCredentialGeneration_eq_ok.mp hupdate
      obtain ⟨hevents, hgenerations⟩ := h.insertCredentialEvent hQ hplace rfl hinsert
      have hsame' : objectOf node = { object with accepted := node.acceptedAfter } := by
        rw [← hsame]
        rfl
      have hnext : IsNextEvent live (eventsOfGeneration live.generationId rows)
          (credentialEventRow profile ledger (nodeMutation transaction closeTime nodeIndex node
            issuer subject (toLowerCase credentialType) uriHex .deleted) live.generationId) :=
        { toIsEventOf := hrow.isEventOf hsame' hobjectId hwell
          live := hdeleted
          later := fun other hother => (h.earlier other (List.mem_of_mem_filter hother)).1 }
      have haccepted : node.acceptedAfter = live.accepted := by
        rw [hrow.accepted, ← hsame]
        rfl
      rw [show node.ledgerObjectId = live.ledgerObjectId from hobjectId.symm]
      refine h.update hmem hdeleted (isUpdate_setDeleted _ _)
        (.deleted (h.lives live hmem) hnext rfl haccepted rfl) rfl (fun hnone => ?_) hlt rfl hplace
        hevents hgenerations
      cases hnone

/-- The node of an object that has a live row is an event as its kind and its flags say. -/
theorem Tracks.eventType_eq_none (h : Tracks P Q known here objects rows)
    {node : NormalizedNode} {object : CredentialObject} (hread : readNode raw = some node)
    (hflags : ListsFlags node) (hold : objects node.ledgerObjectId = some object)
    (hsame : objectOf node = { object with accepted := node.acceptedAfter })
    (hother : ∀ mutation,
      interpretNode P transaction closeTime known nodeIndex raw ≠ .mutation mutation)
    {generation : CredentialGenerationRow} (hmem : generation ∈ rows.credentialGenerations)
    (hlive : generation.deletedLedgerIndex = none)
    (hid : generation.ledgerObjectId = node.ledgerObjectId) : nodeEventType node = none := by
  obtain ⟨hknown, found, hfound, hrow⟩ := h.live generation hmem hlive
  rw [hid, hold] at hfound
  obtain rfl := Option.some.inj hfound
  obtain ⟨credentialType, uriHex, -, -, hwell⟩ :=
    hrow.wellFormed (h.named generation hmem) hread hflags hsame hknown
  by_contra hevent
  obtain ⟨eventType, hevent⟩ := Option.ne_none_iff_exists'.mp hevent
  exact hother _ (interpretNode_eq_mutation.mpr
    ⟨node, _, _, credentialType, uriHex, eventType, hwell, hevent, rfl⟩)

/-- **A node that is no mutation**: no row is written, and none had to be. -/
theorem Tracks.readOther (h : Tracks P Q known here objects rows)
    (hstep : MetadataStep objects raw objects')
    (hother : ∀ mutation,
      interpretNode P transaction closeTime known nodeIndex raw ≠ .mutation mutation) :
    Tracks P Q known here objects' rows := by
  cases hstep with
  | other hread => exact h
  | created hread hflags hkind hnew honly haccepted =>
      refine h.ignore (fun generation hmem hlive hid => ?_) _
      obtain ⟨-, object, hobject, -⟩ := h.live generation hmem hlive
      rw [hid, hnew] at hobject
      cases hobject
  | @modified node object hread hflags hkind hold hsame hbefore hkept hlisted =>
      by_cases hrow : ∃ generation ∈ rows.credentialGenerations,
          generation.deletedLedgerIndex = none ∧ generation.ledgerObjectId = node.ledgerObjectId
      · obtain ⟨generation, hmem, hlive, hid⟩ := hrow
        have hevent := h.eventType_eq_none hread hflags hold hsame hother hmem hlive hid
        have hafter : node.acceptedAfter = object.accepted := by
          have hnot : ¬(node.acceptedBefore = false ∧ node.acceptedAfter = true) := by
            intro hbecomes
            have hsome := (accepts_of_modified hkind hlisted).mpr ⟨rfl, hbecomes⟩
            rw [hevent] at hsome
            cases hsome
          rw [hbefore] at hnot
          cases hcase : object.accepted with
          | true => exact hkept hcase
          | false =>
              rw [← Bool.not_eq_true]
              exact fun hafter => hnot ⟨hcase, hafter⟩
        rw [hafter] at hsame
        rw [hsame, ← hold, Function.update_eq_self]
        exact h
      · exact h.ignore (fun generation hmem hlive hid => hrow ⟨generation, hmem, hlive, hid⟩) _
  | deleted hread hflags hkind hold hsame =>
      refine h.ignore (fun generation hmem hlive hid => ?_) _
      have hevent := h.eventType_eq_none hread hflags hold (by rw [← hsame]; rfl) hother hmem
        hlive hid
      rw [nodeEventType, hkind] at hevent
      cases hevent

end Node

/-! ## Reading a ledger -/

section Ledger

variable {P : Platform} {Q : ℤ → ℤ → JsString → Prop} {known : JsString → Bool}
  {profile : NetworkProfile} {ledger : ValidatedLedger} {objects objects' : LedgerObjects}
  {rows rows' : ProjectionRows}

theorem persistCredentialMutations_append {mutations mutations' : List CredentialMutation} :
    persistCredentialMutations profile ledger (mutations ++ mutations') rows = .ok rows' ↔
      ∃ between, persistCredentialMutations profile ledger mutations rows = .ok between ∧
        persistCredentialMutations profile ledger mutations' between = .ok rows' := by
  induction mutations generalizing rows with
  | nil => simp [persistCredentialMutations]
  | cons mutation mutations ih =>
      simp only [List.cons_append, persistCredentialMutations, bind_eq_ok, ih]
      constructor
      · rintro ⟨first, hfirst, between, hbetween, hrest⟩
        exact ⟨between, ⟨first, hfirst, hbetween⟩, hrest⟩
      · rintro ⟨between, ⟨first, hfirst, hbetween⟩, hrest⟩
        exact ⟨first, hfirst, between, hbetween, hrest⟩

/-- **The nodes of a transaction.** -/
theorem Tracks.readNodes (hQ : IsInjective Q) {transaction : LedgerTransaction}
    (hplace : Q ledger.ledgerIndex transaction.transactionIndex transaction.hash)
    {nodeIndex : ℕ} {nodes : List JsValue}
    (h : Tracks P Q known (placeOf ledger transaction.transactionIndex nodeIndex) objects rows)
    (hrun : Run MetadataStep objects nodes objects') {closeTime : ℕ}
    (hpersist : persistCredentialMutations profile ledger
      (extractNodes P transaction closeTime known nodeIndex nodes).mutations rows = .ok rows') :
    Tracks P Q known (placeOf ledger transaction.transactionIndex (nodeIndex + nodes.length))
      objects' rows' := by
  induction nodes generalizing nodeIndex objects rows with
  | nil =>
      obtain rfl := hrun.nil_inv
      obtain rfl := Except.ok.inj hpersist
      exact h
  | cons raw nodes ih =>
      obtain ⟨between, hfirst, hrest⟩ := hrun.cons_inv
      have hlt := placeOf_lt_succ ledger transaction.transactionIndex nodeIndex
      rw [List.length_cons, Nat.add_comm nodes.length, ← Nat.add_assoc]
      rw [extractNodes] at hpersist
      cases hnode : interpretNode P transaction closeTime known nodeIndex raw with
      | ignored =>
          have hother : ∀ mutation,
              interpretNode P transaction closeTime known nodeIndex raw ≠ .mutation mutation := by
            intro mutation
            rw [hnode]
            exact NodeOutcome.noConfusion
          rw [hnode] at hpersist
          exact ih ((h.readOther hfirst hother).mono (fun _ hknown => hknown) hlt.le) hrest hpersist
      | malformed =>
          have hother : ∀ mutation,
              interpretNode P transaction closeTime known nodeIndex raw ≠ .mutation mutation := by
            intro mutation
            rw [hnode]
            exact NodeOutcome.noConfusion
          rw [hnode] at hpersist
          exact ih ((h.readOther hfirst hother).mono (fun _ hknown => hknown) hlt.le) hrest hpersist
      | mutation mutation =>
          rw [hnode] at hpersist
          simp only [persistCredentialMutations, bind_eq_ok] at hpersist
          obtain ⟨written, hwritten, hpersist⟩ := hpersist
          exact ih (h.readMutation hQ hplace hfirst hnode hwritten) hrest hpersist

/-- A schema that is known stays known. -/
theorem isSome_recordRegistrations {registrations : List SchemaRegistrationResult}
    {ledgerIndex : ℕ} {catalog : SchemaLookup} {uid : JsString}
    (h : (catalog uid).isSome = true) :
    (recordRegistrations profile ledgerIndex catalog registrations uid).isSome = true := by
  induction registrations generalizing catalog with
  | nil => exact h
  | cons registration registrations ih =>
      have hfirst :
          (recordRegistration profile ledgerIndex catalog registration uid).isSome = true := by
        rw [recordRegistration]
        cases catalogEntry profile ledgerIndex registration with
        | none => exact h
        | some entry =>
            by_cases huid : uid = entry.uid
            · subst huid
              exact congrArg Option.isSome (setSchema_self catalog entry)
            · rw [← setSchema_of_ne catalog huid] at h
              exact h
      exact ih hfirst

/-- **The transactions of a ledger.** -/
theorem Tracks.readTransactions (hQ : IsInjective Q) {transactions : List LedgerTransaction}
    (hplaces : ∀ tx ∈ transactions, Q ledger.ledgerIndex tx.transactionIndex tx.hash)
    {position : ℕ} (hindices : transactions.map (·.transactionIndex)
      = List.range' position transactions.length) {catalog : SchemaLookup}
    (h : Tracks P Q (fun uid => (catalog uid).isSome) (placeOf ledger position 0) objects rows)
    (hrun : Run MetadataStep objects (transactions.flatMap affectedNodes) objects')
    (hpersist : persistCredentialMutations profile ledger
      (projectTransactions P ledger profile transactions catalog).2.1 rows = .ok rows') :
    Tracks P Q (fun uid => (catalogAfter P ledger profile transactions catalog uid).isSome)
      (placeOf ledger (position + transactions.length) 0) objects' rows' := by
  induction transactions generalizing position catalog objects rows with
  | nil =>
      obtain rfl := hrun.nil_inv
      obtain rfl := Except.ok.inj hpersist
      exact h
  | cons tx transactions ih =>
      rw [List.forall_mem_cons] at hplaces
      rw [List.map_cons, List.length_cons, List.range'_succ, List.cons.injEq] at hindices
      obtain ⟨hposition, hindices⟩ := hindices
      rw [List.flatMap_cons] at hrun
      obtain ⟨between, hfirst, hrest⟩ := hrun.split
      rw [projectTransactions, persistCredentialMutations_append] at hpersist
      obtain ⟨written, hwritten, hpersist⟩ := hpersist
      rw [extractCredentialMutations_eq] at hwritten
      have hknown : Tracks P Q (fun uid => (catalogNext P ledger profile catalog tx uid).isSome)
          (placeOf ledger position 0) objects rows :=
        h.mono (fun _ => isSome_recordRegistrations) le_rfl
      rw [← hposition] at hknown
      have hread := hknown.readNodes hQ hplaces.1 hfirst hwritten
      have hnext := hread.mono (fun _ hsome => hsome) (placeOf_le_next ledger _ _)
      rw [hposition] at hnext
      rw [catalogAfter_cons, List.length_cons, Nat.add_comm transactions.length, ← Nat.add_assoc]
      exact ih hplaces.2 hindices hnext hrest hpersist

/-- Neither the generations nor the events of credentials differ. -/
structure SameCredentials (rows rows' : ProjectionRows) : Prop where
  credentialGenerations : rows'.credentialGenerations = rows.credentialGenerations
  credentialEvents : rows'.credentialEvents = rows.credentialEvents

theorem SameCredentials.trans {rows'' : ProjectionRows} (h : SameCredentials rows rows')
    (h' : SameCredentials rows' rows'') : SameCredentials rows rows'' :=
  ⟨h'.credentialGenerations.trans h.credentialGenerations,
    h'.credentialEvents.trans h.credentialEvents⟩

theorem insertSchemaEvent_sameCredentials {row : SchemaEventRow}
    (h : insertSchemaEvent row rows = .ok rows') : SameCredentials rows rows' := by
  obtain ⟨-, -, ⟨-, rfl⟩ | ⟨-, -, rfl⟩⟩ := insertSchemaEvent_eq_ok.mp h
  · exact ⟨rfl, rfl⟩
  · exact ⟨rfl, rfl⟩

theorem insertSchema_sameCredentials {row : SchemaRow}
    (h : insertSchema row rows = .ok rows') : SameCredentials rows rows' := by
  obtain ⟨-, -, ⟨-, rfl⟩ | ⟨-, -, -, rfl⟩⟩ := insertSchema_eq_ok.mp h
  · exact ⟨rfl, rfl⟩
  · exact ⟨rfl, rfl⟩

/-- No registration writes to the tables of credentials. -/
theorem persistRegistrations_sameCredentials {registrations : List SchemaRegistrationResult}
    (h : persistRegistrations P profile ledger registrations rows = .ok rows') :
    SameCredentials rows rows' := by
  induction registrations generalizing rows with
  | nil =>
      obtain rfl := Except.ok.inj h
      exact ⟨rfl, rfl⟩
  | cons registration registrations ih =>
      simp only [persistRegistrations, bind_eq_ok] at h
      obtain ⟨between, hfirst, hrest⟩ := h
      refine SameCredentials.trans ?_ (ih hrest)
      rw [persistRegistration.eq_def] at hfirst
      split at hfirst
      · simp only [bind_eq_ok] at hfirst
        obtain ⟨_, -, _, hevent, _, -, _, -, hschema⟩ := hfirst
        exact (insertSchemaEvent_sameCredentials hevent).trans
          (insertSchema_sameCredentials hschema)
      · exact insertSchemaEvent_sameCredentials hfirst
      · simp only [bind_eq_ok] at hfirst
        obtain ⟨_, -, hevent⟩ := hfirst
        exact insertSchemaEvent_sameCredentials hevent

theorem Tracks.sameCredentials {here : ℤ ×ₗ ℤ ×ₗ ℤ} (h : Tracks P Q known here objects rows)
    (hsame : SameCredentials rows rows') : Tracks P Q known here objects rows' := by
  have hevents : ∀ generationId,
      eventsOfGeneration generationId rows' = eventsOfGeneration generationId rows := by
    intro generationId
    rw [eventsOfGeneration, hsame.credentialEvents]
    rfl
  constructor
  · rw [hsame.credentialGenerations]
    exact h.generationIds
  · rw [hsame.credentialGenerations]
    intro generation hmem
    rw [hevents]
    exact h.lives generation hmem
  · rw [hsame.credentialGenerations]
    exact h.named
  · rw [hsame.credentialGenerations]
    exact h.live
  · rw [hsame.credentialGenerations]
    exact h.single
  · rw [hsame.credentialGenerations]
    exact h.newest
  · rw [hsame.credentialGenerations, hsame.credentialEvents]
    exact h.owned
  · rw [hsame.credentialEvents]
    exact h.earlier

/-- **A ledger.** -/
theorem Tracks.persistProjection (hQ : IsInjective Q)
    (hplaces : ∀ tx ∈ ledger.transactions, Q ledger.ledgerIndex tx.transactionIndex tx.hash)
    {catalog : SchemaLookup}
    (h : Tracks P Q (fun uid => (catalog uid).isSome) (placeOf ledger 0 0) objects rows)
    (hrun : Run MetadataStep objects (ledgerNodes ledger) objects') {projection : LedgerProjection}
    (hprojection : projectLedger P ledger profile catalog = .ok projection)
    (hpersist : persistProjection P profile projection rows = .ok rows') :
    Tracks P Q (fun uid => (catalogAfter P ledger profile ledger.transactions catalog uid).isSome)
      (placeOf ledger ledger.transactions.length 0) objects' rows' := by
  obtain ⟨hindices, rfl⟩ := projectLedger_eq_ok.mp hprojection
  simp only [Indexer.persistProjection, bind_eq_ok] at hpersist
  obtain ⟨-, -, registered, hregistered, mutated, hmutated, hcheckpoint⟩ := hpersist
  have hread := (h.sameCredentials (persistRegistrations_sameCredentials
    hregistered)).readTransactions hQ hplaces hindices hrun hmutated
  rw [Nat.zero_add] at hread
  obtain ⟨-, -, -, -, rfl⟩ := insertLedgerCheckpoint_eq_ok.mp hcheckpoint
  exact hread.sameCredentials ⟨rfl, rfl⟩

end Ledger

/-! ## Reading a chain -/

section Chain

variable {P : Platform} {profile : NetworkProfile} {chain : ℕ → ValidatedLedger}

theorem isInjective_isOfChain (hchain : IsIndexable P profile chain)
    (hrecords : RecordsCredentials profile chain) (n : ℕ) :
    IsInjective (IsOfChain profile chain n) := by
  rintro ledgerIndex transactionIndex ledgerIndex' transactionIndex' hash
    ⟨i, -, tx, htx, rfl, rfl, rfl⟩ ⟨j, -, tx', htx', rfl, rfl, hhash⟩
  obtain hij := hrecords.transactionHashes _ _ tx htx tx' htx' hhash
  rw [← hij] at htx' ⊢
  rw [List.inj_on_of_nodup_map (hchain.normalized _).transactionHashes htx htx' hhash]
  exact ⟨rfl, rfl⟩

/-- **The rows after any number of ledgers** are the rows of the credentials that are in the ledger
then. -/
theorem tracks_of_indexedUpTo (hchain : IsIndexable P profile chain)
    (hrecords : RecordsCredentials profile chain) {n : ℕ} {s : IndexedState}
    (h : indexedUpTo P profile chain n = .ok s) :
    ∃ before objects, Run MetadataStep before (nodesUpTo profile chain n) objects ∧
      Tracks P (IsOfChain profile chain n) (fun uid => (s.catalog uid).isSome)
        (toLex (((profile.activationLedgerIndex + n : ℕ) : ℤ), toLex (0, 0))) objects s.rows := by
  obtain ⟨before, hruns⟩ := hrecords.run
  obtain ⟨objects, hrun⟩ := hruns n
  refine ⟨before, objects, hrun, ?_⟩
  clear hruns
  induction n generalizing s objects with
  | zero =>
      obtain rfl := Except.ok.inj h
      exact ⟨List.nodup_nil, List.forall_mem_nil _, List.forall_mem_nil _, List.forall_mem_nil _,
        List.forall_mem_nil _, List.forall_mem_nil _, List.forall_mem_nil _,
        List.forall_mem_nil _⟩
  | succ n ih =>
      have hindex := (indexedUpTo_ok hchain h).ledgerIndex n (Nat.lt_succ_self n)
      obtain ⟨s', projection, hs', hprojection, hrows, hcatalog, -⟩ := indexedUpTo_succ.mp h
      obtain ⟨between, hbetween, hledger⟩ := hrun.split
      have hbefore := (ih hs' between hbetween).places (R := IsOfChain profile chain (n + 1)) ?_
      · rw [← hindex] at hbefore
        have hnext := hbefore.persistProjection (isInjective_isOfChain hchain hrecords _)
          (fun tx htx => ⟨n, Nat.lt_succ_self n, tx, htx, rfl, rfl, rfl⟩) hledger hprojection hrows
        rw [← hcatalog] at hnext
        refine hnext.mono (fun _ hsome => hsome) (Prod.Lex.toLex_le_toLex.mpr (Or.inl ?_))
        rw [hindex]
        exact Int.ofNat_lt.mpr (Nat.lt_succ_self _)
      · rintro ledgerIndex transactionIndex hash ⟨i, hi, hplace⟩
        exact ⟨i, hi.trans (Nat.lt_succ_self n), hplace⟩

end Chain

end Agreement
end Xcs
