import Xcs.Core.PayloadUri
import Xcs.Indexer.Types

/-!
# Credential mutations

The metadata of a transaction lists the ledger objects it created, modified and deleted.  A node of
type `Credential` whose credential type is the UID of a known schema becomes a mutation: its
creation, its acceptance or its deletion.  A node that is not shaped like one is counted as
malformed and otherwise ignored.

`extractCredentialMutations` visits the nodes in order, and `interpretNode` is what it does with
one of them.
-/

namespace Xcs
namespace Indexer

open Js Xcs.Core

/-- `CREDENTIAL_ACCEPTED_FLAG` -/
def credentialAcceptedFlag : ℕ := 0x00010000

/-- `NodeKind` -/
inductive NodeKind where
  | createdNode
  | modifiedNode
  | deletedNode
  deriving DecidableEq

/-- The key of a kind of node. -/
def NodeKind.text : NodeKind → JsString
  | .createdNode => js "CreatedNode"
  | .modifiedNode => js "ModifiedNode"
  | .deletedNode => js "DeletedNode"

/-- The kinds in the order in which they are looked for. -/
def nodeKinds : List NodeKind :=
  [.createdNode, .modifiedNode, .deletedNode]

/-- `NormalizedNode` -/
structure NormalizedNode where
  kind : NodeKind
  ledgerObjectId : JsString
  fields : JsValue
  previousFields : JsValue

/-- `record` -/
def asRecord (value : JsValue) : Option JsValue :=
  if value.isObject then some value else none

/-- The node of a kind in a wrapper, when it is a credential. -/
def credentialNode (wrapper : JsValue) (kind : NodeKind) : Option JsValue :=
  (asRecord (wrapper.get kind.text)).filter fun node =>
    (node.get (js "LedgerEntryType")).isStr (js "Credential")

/-- The first kind under which a wrapper holds a credential, and the node. -/
def findCredentialNode (wrapper : JsValue) : Option (NodeKind × JsValue) :=
  nodeKinds.findSome? fun kind => (credentialNode wrapper kind).map fun node => (kind, node)

/-- `normalizeNode` on a wrapper that holds a credential. -/
def normalizeNode (kind : NodeKind) (node : JsValue) : Option NormalizedNode :=
  match node.get (js "LedgerIndex") with
  | .str ledgerObjectId =>
      if isHash ledgerObjectId then
        (asRecord (node.get
            (if kind = .createdNode then js "NewFields" else js "FinalFields"))).map fun fields =>
          { kind
            ledgerObjectId := toLowerCase ledgerObjectId
            fields
            previousFields := (asRecord (node.get (js "PreviousFields"))).getD (.obj []) }
      else none
  | _ => none

/-- `uint32` -/
def uint32 (value : JsValue) : Option ℕ :=
  match value with
  | .num n => n.toUint32?
  | _ => none

/-- `(flags & CREDENTIAL_ACCEPTED_FLAG) !== 0` -/
def hasAcceptedFlag (flags : ℕ) : Bool :=
  flags &&& credentialAcceptedFlag != 0

/-- `isAccepted` -/
def isAcceptedFields (fields : JsValue) : Bool :=
  hasAcceptedFlag ((uint32 (fields.get (js "Flags"))).getD 0)

/-- `deletionCause` -/
def deletionCause (transactionType actor fields : JsValue) (issuer subject : JsString)
    (closeTime : ℕ) : CredentialDeletionCause :=
  let byExpiration : CredentialDeletionCause :=
    match uint32 (fields.get (js "Expiration")) with
    | some expiration => if expiration ≤ closeTime then .expiredCleanup else .selfDeleted
    | none => .selfDeleted
  if transactionType.isStr (js "AccountDelete") then .accountDeleted
  else if transactionType.isStr (js "CredentialDelete") then
    if actor.isStr issuer then .issuerRevoked
    else if actor.isStr subject then
      if isAcceptedFields fields then .subjectRemoved else .subjectRejected
    else byExpiration
  else byExpiration

/-- What a metadata node comes to. -/
inductive NodeOutcome where
  | ignored
  | malformed
  | mutation (mutation : CredentialMutation)

/-- A numeric field is absent or a uint32. -/
def isUint32OrUndefined (value : JsValue) : Bool :=
  value.isUndefined || (uint32 value).isSome

/-- The event of a node, when it is one. -/
def nodeEventType (node : NormalizedNode) : Option CredentialEventType :=
  match node.kind with
  | .createdNode => some .created
  | .deletedNode => some .deleted
  | .modifiedNode =>
      if !isAcceptedFields node.fields
          || (uint32 (node.previousFields.get (js "Flags"))).any hasAcceptedFlag then none
      else some .accepted

/-- The mutation of a node whose fields have passed the checks. -/
def nodeMutation (transaction : LedgerTransaction) (closeTime nodeIndex : ℕ)
    (node : NormalizedNode) (issuer subject schemaUid uriHex : JsString)
    (eventType : CredentialEventType) : CredentialMutation where
  transactionHash := transaction.hash
  transactionIndex := transaction.transactionIndex
  nodeIndex
  ledgerObjectId := node.ledgerObjectId
  eventType
  issuer
  subject
  schemaUid
  uriHex
  expiration := uint32 (node.fields.get (js "Expiration"))
  accepted := isAcceptedFields node.fields
  deletionCause :=
    if eventType = .deleted then
      some (deletionCause (transaction.transaction.get (js "TransactionType"))
        (transaction.transaction.get (js "Account")) node.fields issuer subject closeTime)
    else none
  snapshot := node.fields

/-- `parsePayloadUri(decodeHexUtf8(uriHex))` returns. -/
def hasPayloadUri (P : Platform) (uriHex : JsString) : Bool :=
  match (hexToBytes uriHex).bind decodeUtf8 with
  | some uri => (parsePayloadUri P uri).isOk
  | none => false

/-- The body of the visit for a normalised node. -/
def interpretCredential (P : Platform) (transaction : LedgerTransaction) (closeTime : ℕ)
    (knownSchemaUids : JsString → Bool) (nodeIndex : ℕ) (node : NormalizedNode) : NodeOutcome :=
  match node.fields.get (js "Issuer"), node.fields.get (js "Subject"),
      node.fields.get (js "CredentialType") with
  | .str issuer, .str subject, .str credentialType =>
      if !P.isValidClassicAddress issuer || !P.isValidClassicAddress subject
          || !isHash credentialType then .malformed
      else if !knownSchemaUids (toLowerCase credentialType) then .ignored
      else if !isUint32OrUndefined (node.fields.get (js "Flags"))
          || !isUint32OrUndefined (node.fields.get (js "Expiration"))
          || !isUint32OrUndefined (node.previousFields.get (js "Flags")) then .malformed
      else
        match node.fields.get (js "URI") with
        | .str uriHex =>
            if !hasPayloadUri P uriHex then .malformed
            else
              match nodeEventType node with
              | none => .ignored
              | some eventType =>
                  .mutation (nodeMutation transaction closeTime nodeIndex node issuer subject
                    (toLowerCase credentialType) uriHex eventType)
        | _ => .malformed
  | _, _, _ => .malformed

/-- The visit of a metadata node. -/
def interpretNode (P : Platform) (transaction : LedgerTransaction) (closeTime : ℕ)
    (knownSchemaUids : JsString → Bool) (nodeIndex : ℕ) (rawNode : JsValue) : NodeOutcome :=
  match findCredentialNode rawNode with
  | none => .ignored
  | some (kind, node) =>
      match normalizeNode kind node with
      | none => .malformed
      | some node => interpretCredential P transaction closeTime knownSchemaUids nodeIndex node

/-- The loop over the metadata nodes. -/
def extractNodes (P : Platform) (transaction : LedgerTransaction) (closeTime : ℕ)
    (knownSchemaUids : JsString → Bool) : ℕ → List JsValue → ExtractedCredentialMutations
  | _, [] => ⟨[], 0⟩
  | nodeIndex, rawNode :: nodes =>
      let rest := extractNodes P transaction closeTime knownSchemaUids (nodeIndex + 1) nodes
      match interpretNode P transaction closeTime knownSchemaUids nodeIndex rawNode with
      | .ignored => rest
      | .malformed => { rest with malformedCredentialNodes := rest.malformedCredentialNodes + 1 }
      | .mutation mutation => { rest with mutations := mutation :: rest.mutations }

/-- `extractCredentialMutations` -/
def extractCredentialMutations (P : Platform) (transaction : LedgerTransaction) (closeTime : ℕ)
    (knownSchemaUids : JsString → Bool) : ExtractedCredentialMutations :=
  match transaction.metadata.get (js "AffectedNodes") with
  | .arr nodes => extractNodes P transaction closeTime knownSchemaUids 0 nodes
  | _ => ⟨[], 0⟩

/-! ## What the loop collects -/

/-- A node that is counted as malformed. -/
def NodeOutcome.isMalformed : NodeOutcome → Bool
  | .malformed => true
  | _ => false

section Loop

variable {P : Platform} {transaction : LedgerTransaction} {closeTime : ℕ}
  {knownSchemaUids : JsString → Bool}

/-- The mutations are those of the nodes at their places. -/
theorem mem_extractNodes {mutation : CredentialMutation} : ∀ {start : ℕ} {nodes : List JsValue},
    mutation ∈ (extractNodes P transaction closeTime knownSchemaUids start nodes).mutations ↔
      ∃ i node, nodes[i]? = some node ∧
        interpretNode P transaction closeTime knownSchemaUids (start + i) node
          = .mutation mutation
  | start, [] => by simp [extractNodes]
  | start, rawNode :: nodes => by
      have hrest := @mem_extractNodes mutation (start + 1) nodes
      have hsplit : (∃ i node, (rawNode :: nodes)[i]? = some node ∧
          interpretNode P transaction closeTime knownSchemaUids (start + i) node
            = .mutation mutation) ↔
          interpretNode P transaction closeTime knownSchemaUids start rawNode
              = .mutation mutation ∨
            ∃ i node, nodes[i]? = some node ∧
              interpretNode P transaction closeTime knownSchemaUids (start + 1 + i) node
                = .mutation mutation := by
        constructor
        · rintro ⟨i, node, hnode, houtcome⟩
          cases i with
          | zero =>
              rw [List.getElem?_cons_zero, Option.some.injEq] at hnode
              subst hnode
              exact Or.inl houtcome
          | succ i =>
              rw [List.getElem?_cons_succ] at hnode
              refine Or.inr ⟨i, node, hnode, ?_⟩
              rwa [Nat.add_assoc, Nat.add_comm 1 i]
        · rintro (houtcome | ⟨i, node, hnode, houtcome⟩)
          · exact ⟨0, rawNode, rfl, houtcome⟩
          · refine ⟨i + 1, node, hnode, ?_⟩
            rwa [Nat.add_comm i 1, ← Nat.add_assoc]
      rw [hsplit, ← hrest, extractNodes]
      cases interpretNode P transaction closeTime knownSchemaUids start rawNode with
      | ignored => simp
      | malformed => simp
      | mutation m =>
          simp only [List.mem_cons, NodeOutcome.mutation.injEq]
          exact or_congr_left eq_comm

/-- The count is the number of malformed nodes. -/
theorem malformed_extractNodes : ∀ (start : ℕ) (nodes : List JsValue),
    (extractNodes P transaction closeTime knownSchemaUids start nodes).malformedCredentialNodes =
      (nodes.zipIdx start).countP fun m =>
        (interpretNode P transaction closeTime knownSchemaUids m.2 m.1).isMalformed
  | _, [] => rfl
  | start, rawNode :: nodes => by
      rw [List.zipIdx_cons, List.countP_cons, ← malformed_extractNodes (start + 1) nodes,
        extractNodes]
      cases interpretNode P transaction closeTime knownSchemaUids start rawNode with
      | _ => rfl

end Loop

end Indexer
end Xcs
