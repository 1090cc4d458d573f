import Mathlib.Data.Set.Card
import Xcs.Indexer.CredentialMutations

/-!
# The life of a credential

A credential is created, may be accepted, and is deleted.  Metadata says of a modified node which
fields it had before only where they changed, so the flags before a transaction are those of
`PreviousFields`, or those of `FinalFields` where `PreviousFields` lists none.

`WellFormed` and `MalformedNode` sort the nodes of a transaction without the order of the checks,
and `EventOf` says which event a node is.  The loop reads a node without previous flags as one that
was not accepted before, so it reports the acceptance of a credential once more whenever an accepted
credential is modified in another field (`RepeatsAcceptance`).  `credential_acceptance` says that
this is all that is wrong.
-/

namespace Xcs
namespace Indexer

open Js Xcs.Core

/-! ## Nodes -/

/-- The nodes a transaction affected. -/
def affectedNodes (transaction : LedgerTransaction) : List JsValue :=
  match transaction.metadata.get (js "AffectedNodes") with
  | .arr nodes => nodes
  | _ => []

/-- The credential node of a wrapper, normalised. -/
def readNode (raw : JsValue) : Option NormalizedNode :=
  (findCredentialNode raw).bind fun found => normalizeNode found.1 found.2

/-- The node names an issuer, a subject and a credential type. -/
structure NormalizedNode.Names (P : Platform) (node : NormalizedNode)
    (issuer subject credentialType : JsString) : Prop where
  hasIssuer : node.fields.get (js "Issuer") = .str issuer
  hasSubject : node.fields.get (js "Subject") = .str subject
  hasType : node.fields.get (js "CredentialType") = .str credentialType
  validIssuer : P.isValidClassicAddress issuer = true
  validSubject : P.isValidClassicAddress subject = true
  isUid : isHash credentialType = true

/-- The other fields of the node are in order, and it has a payload URI. -/
structure NormalizedNode.Carries (P : Platform) (node : NormalizedNode) (uriHex : JsString) :
    Prop where
  flags : isUint32OrUndefined (node.fields.get (js "Flags")) = true
  expiration : isUint32OrUndefined (node.fields.get (js "Expiration")) = true
  previousFlags : isUint32OrUndefined (node.previousFields.get (js "Flags")) = true
  uri : node.fields.get (js "URI") = .str uriHex
  payload : hasPayloadUri P uriHex = true

/-- A well-formed node of a credential of a known schema. -/
structure WellFormed (P : Platform) (knownSchemaUids : JsString → Bool) (raw : JsValue)
    (node : NormalizedNode) (issuer subject credentialType uriHex : JsString) : Prop where
  read : readNode raw = some node
  names : node.Names P issuer subject credentialType
  known : knownSchemaUids (toLowerCase credentialType) = true
  carries : node.Carries P uriHex

/-- A wrapper that holds a credential, but none that can be read and named, or one of a known schema
whose other fields are not in order. -/
def MalformedNode (P : Platform) (knownSchemaUids : JsString → Bool) (raw : JsValue) : Prop :=
  (findCredentialNode raw).isSome = true ∧ ∀ node, readNode raw = some node →
    (∀ issuer subject credentialType, ¬node.Names P issuer subject credentialType) ∨
      ∃ issuer subject credentialType, node.Names P issuer subject credentialType ∧
        knownSchemaUids (toLowerCase credentialType) = true ∧ ∀ uriHex, ¬node.Carries P uriHex

/-- The credential is accepted after the transaction. -/
def NormalizedNode.acceptedAfter (node : NormalizedNode) : Bool :=
  isAcceptedFields node.fields

/-- The credential was accepted before the transaction; flags that are not listed did not change. -/
def NormalizedNode.acceptedBefore (node : NormalizedNode) : Bool :=
  if (node.previousFields.get (js "Flags")).isUndefined then node.acceptedAfter
  else isAcceptedFields node.previousFields

/-- The event a node is. -/
def EventOf (node : NormalizedNode) : CredentialEventType → Prop
  | .created => node.kind = .createdNode
  | .deleted => node.kind = .deletedNode
  | .accepted =>
      node.kind = .modifiedNode ∧ node.acceptedBefore = false ∧ node.acceptedAfter = true

/-- A well-formed modified node of an accepted credential whose flags did not change. -/
def RepeatsAcceptance (P : Platform) (knownSchemaUids : JsString → Bool) (raw : JsValue) : Prop :=
  ∃ node issuer subject credentialType uriHex,
    WellFormed P knownSchemaUids raw node issuer subject credentialType uriHex ∧
      node.kind = .modifiedNode ∧ node.acceptedAfter = true ∧
      (node.previousFields.get (js "Flags")).isUndefined = true

/-! ## One node -/

section Node

variable {P : Platform} {transaction : LedgerTransaction} {closeTime nodeIndex : ℕ}
  {knownSchemaUids : JsString → Bool}

theorem NormalizedNode.Names.unique {node : NormalizedNode}
    {issuer subject credentialType issuer' subject' credentialType' : JsString}
    (h : node.Names P issuer subject credentialType)
    (h' : node.Names P issuer' subject' credentialType') :
    issuer = issuer' ∧ subject = subject' ∧ credentialType = credentialType' :=
  ⟨JsValue.str.inj (h.hasIssuer.symm.trans h'.hasIssuer),
    JsValue.str.inj (h.hasSubject.symm.trans h'.hasSubject),
    JsValue.str.inj (h.hasType.symm.trans h'.hasType)⟩

/-- The visit of a node that names no credential. -/
theorem interpretCredential_of_not_names {node : NormalizedNode}
    (h : ∀ issuer subject credentialType, ¬node.Names P issuer subject credentialType) :
    interpretCredential P transaction closeTime knownSchemaUids nodeIndex node = .malformed := by
  unfold interpretCredential
  split
  · rename_i issuer subject credentialType hissuer hsubject htype
    split_ifs with hvalid
    · rfl
    all_goals
      simp only [Bool.or_eq_true, Bool.not_eq_true', not_or, Bool.not_eq_false] at hvalid
      exact absurd ⟨hissuer, hsubject, htype, hvalid.1.1, hvalid.1.2, hvalid.2⟩ (h _ _ _)
  · rfl

section Names

variable {node : NormalizedNode} {issuer subject credentialType : JsString}
  (h : node.Names P issuer subject credentialType)

include h

/-- The visit of a node of another schema. -/
theorem interpretCredential_of_unknown
    (hknown : knownSchemaUids (toLowerCase credentialType) = false) :
    interpretCredential P transaction closeTime knownSchemaUids nodeIndex node = .ignored := by
  unfold interpretCredential
  rw [h.hasIssuer, h.hasSubject, h.hasType]
  dsimp only
  rw [h.validIssuer, h.validSubject, h.isUid, hknown]
  rfl

/-- The visit of a well-formed node of a known schema. -/
theorem interpretCredential_of_carries {uriHex : JsString}
    (hknown : knownSchemaUids (toLowerCase credentialType) = true)
    (hcarries : node.Carries P uriHex) :
    interpretCredential P transaction closeTime knownSchemaUids nodeIndex node =
      (nodeEventType node).elim .ignored fun eventType =>
        .mutation (nodeMutation transaction closeTime nodeIndex node issuer subject
          (toLowerCase credentialType) uriHex eventType) := by
  unfold interpretCredential
  rw [h.hasIssuer, h.hasSubject, h.hasType]
  dsimp only
  rw [h.validIssuer, h.validSubject, h.isUid, hknown, hcarries.flags, hcarries.expiration,
    hcarries.previousFlags, hcarries.uri]
  dsimp only
  rw [hcarries.payload]
  cases nodeEventType node <;> rfl

/-- The visit of a node of a known schema whose other fields are not in order. -/
theorem interpretCredential_of_not_carries
    (hknown : knownSchemaUids (toLowerCase credentialType) = true)
    (hcarries : ∀ uriHex, ¬node.Carries P uriHex) :
    interpretCredential P transaction closeTime knownSchemaUids nodeIndex node = .malformed := by
  unfold interpretCredential
  rw [h.hasIssuer, h.hasSubject, h.hasType]
  dsimp only
  rw [h.validIssuer, h.validSubject, h.isUid, hknown, if_neg (by decide), if_neg (by decide)]
  split_ifs with hfields
  · rfl
  · simp only [Bool.or_eq_true, Bool.not_eq_true', not_or, Bool.not_eq_false] at hfields
    split
    · rename_i uriHex huri
      rw [if_pos]
      rw [Bool.not_eq_true', ← Bool.not_eq_true]
      exact fun hpayload =>
        hcarries uriHex ⟨hfields.1.1, hfields.1.2, hfields.2, huri, hpayload⟩
    · rfl

end Names

theorem interpretNode_eq (raw : JsValue) :
    interpretNode P transaction closeTime knownSchemaUids nodeIndex raw =
      if (findCredentialNode raw).isSome then
        (readNode raw).elim .malformed
          (interpretCredential P transaction closeTime knownSchemaUids nodeIndex)
      else .ignored := by
  unfold interpretNode readNode
  cases findCredentialNode raw with
  | none => rfl
  | some found =>
      obtain ⟨kind, node⟩ := found
      dsimp only [Option.bind_some, Option.isSome_some]
      cases normalizeNode kind node <;> rfl

/-- **A node becomes a mutation** when it is well formed and is an event. -/
theorem interpretNode_eq_mutation {raw : JsValue} {mutation : CredentialMutation} :
    interpretNode P transaction closeTime knownSchemaUids nodeIndex raw = .mutation mutation ↔
      ∃ node issuer subject credentialType uriHex eventType,
        WellFormed P knownSchemaUids raw node issuer subject credentialType uriHex ∧
        nodeEventType node = some eventType ∧
        mutation = nodeMutation transaction closeTime nodeIndex node issuer subject
          (toLowerCase credentialType) uriHex eventType := by
  rw [interpretNode_eq]
  constructor
  · intro h
    split_ifs at h with hfound
    cases hread : readNode raw with
    | none =>
        rw [hread] at h
        cases h
    | some node =>
        rw [hread, Option.elim_some] at h
        by_cases hnames : ∃ issuer subject credentialType,
            node.Names P issuer subject credentialType
        · obtain ⟨issuer, subject, credentialType, hnames⟩ := hnames
          cases hknown : knownSchemaUids (toLowerCase credentialType) with
          | false =>
              rw [interpretCredential_of_unknown hnames hknown] at h
              cases h
          | true =>
              by_cases hcarries : ∃ uriHex, node.Carries P uriHex
              · obtain ⟨uriHex, hcarries⟩ := hcarries
                rw [interpretCredential_of_carries hnames hknown hcarries] at h
                cases hevent : nodeEventType node with
                | none =>
                    rw [hevent] at h
                    cases h
                | some eventType =>
                    rw [hevent, Option.elim_some, NodeOutcome.mutation.injEq] at h
                    exact ⟨node, issuer, subject, credentialType, uriHex, eventType,
                      ⟨hread, hnames, hknown, hcarries⟩, hevent, h.symm⟩
              · rw [interpretCredential_of_not_carries hnames hknown
                  (not_exists.mp hcarries)] at h
                cases h
        · simp only [not_exists] at hnames
          rw [interpretCredential_of_not_names hnames] at h
          cases h
  · rintro ⟨node, issuer, subject, credentialType, uriHex, eventType,
      ⟨hread, hnames, hknown, hcarries⟩, hevent, rfl⟩
    have hfound : (findCredentialNode raw).isSome = true := by
      cases hfind : findCredentialNode raw with
      | none =>
          rw [readNode, hfind] at hread
          cases hread
      | some found => rfl
    rw [if_pos hfound, hread, Option.elim_some,
      interpretCredential_of_carries hnames hknown hcarries, hevent]
    rfl

/-- **A node is counted** when it is malformed. -/
theorem isMalformed_interpretNode {raw : JsValue} :
    (interpretNode P transaction closeTime knownSchemaUids nodeIndex raw).isMalformed = true ↔
      MalformedNode P knownSchemaUids raw := by
  rw [interpretNode_eq, MalformedNode]
  split_ifs with hfound
  · rw [hfound]
    cases hread : readNode raw with
    | none => simp [NodeOutcome.isMalformed]
    | some node =>
        simp only [Option.elim_some, Option.some.injEq, forall_eq', true_and]
        by_cases hnames : ∃ issuer subject credentialType,
            node.Names P issuer subject credentialType
        · obtain ⟨issuer, subject, credentialType, hnames⟩ := hnames
          have hsome : ¬∀ issuer subject credentialType,
              ¬node.Names P issuer subject credentialType := fun h => h _ _ _ hnames
          have hunique : (∃ issuer subject credentialType,
              node.Names P issuer subject credentialType ∧
              knownSchemaUids (toLowerCase credentialType) = true ∧
              ∀ uriHex, ¬node.Carries P uriHex) ↔
                knownSchemaUids (toLowerCase credentialType) = true ∧
                  ∀ uriHex, ¬node.Carries P uriHex := by
            constructor
            · rintro ⟨_, _, _, hnames', hknown, hcarries⟩
              obtain ⟨rfl, rfl, rfl⟩ := hnames.unique hnames'
              exact ⟨hknown, hcarries⟩
            · exact fun h => ⟨_, _, _, hnames, h⟩
          rw [or_iff_right hsome, hunique]
          cases hknown : knownSchemaUids (toLowerCase credentialType) with
          | false =>
              rw [interpretCredential_of_unknown hnames hknown]
              simp [NodeOutcome.isMalformed]
          | true =>
              by_cases hcarries : ∃ uriHex, node.Carries P uriHex
              · obtain ⟨uriHex, hcarries⟩ := hcarries
                rw [interpretCredential_of_carries hnames hknown hcarries]
                refine iff_of_false ?_ fun h => h.2 uriHex hcarries
                cases nodeEventType node <;> simp [NodeOutcome.isMalformed]
              · rw [interpretCredential_of_not_carries hnames hknown (not_exists.mp hcarries)]
                exact iff_of_true rfl ⟨rfl, not_exists.mp hcarries⟩
        · simp only [not_exists] at hnames
          rw [interpretCredential_of_not_names hnames]
          exact iff_of_true rfl (Or.inl hnames)
  · rw [Bool.not_eq_true] at hfound
    rw [hfound]
    simp [NodeOutcome.isMalformed]

end Node

/-! ## The event of a node -/

/-- The loop finds the event of a node, unless the node is modified, accepted and without previous
flags. -/
theorem nodeEventType_eq_some {node : NormalizedNode} {eventType : CredentialEventType}
    (h : node.kind = .modifiedNode → node.acceptedAfter = true →
      (node.previousFields.get (js "Flags")).isUndefined = false) :
    nodeEventType node = some eventType ↔ EventOf node eventType := by
  unfold nodeEventType
  cases hkind : node.kind with
  | createdNode => cases eventType <;> simp [EventOf, hkind]
  | deletedNode => cases eventType <;> simp [EventOf, hkind]
  | modifiedNode =>
      have hbefore : node.acceptedAfter = true → node.acceptedBefore
          = (uint32 (node.previousFields.get (js "Flags"))).any hasAcceptedFlag := by
        intro hafter
        rw [NormalizedNode.acceptedBefore, h hkind hafter, if_neg (by decide), isAcceptedFields]
        cases uint32 (node.previousFields.get (js "Flags")) <;> rfl
      have hafter : isAcceptedFields node.fields = node.acceptedAfter := rfl
      dsimp only
      rw [hafter]
      cases hcase : node.acceptedAfter with
      | false => cases eventType <;> simp [EventOf, hkind, hcase]
      | true =>
          rw [← hbefore hcase]
          cases eventType <;> cases hflag : node.acceptedBefore <;>
            simp [EventOf, hkind, hcase, hflag]

/-- A node that repeats an acceptance is reported, and is no event. -/
theorem nodeEventType_of_repeats {node : NormalizedNode} (hkind : node.kind = .modifiedNode)
    (hafter : node.acceptedAfter = true)
    (hflags : (node.previousFields.get (js "Flags")).isUndefined = true) :
    nodeEventType node = some .accepted ∧ ¬EventOf node .accepted := by
  rw [JsValue.isUndefined_iff] at hflags
  constructor
  · have hfields : isAcceptedFields node.fields = true := hafter
    unfold nodeEventType
    rw [hkind]
    dsimp only
    rw [hfields, hflags]
    rfl
  · rintro ⟨-, hbefore, -⟩
    rw [NormalizedNode.acceptedBefore, hflags, JsValue.isUndefined, if_pos rfl, hafter] at hbefore
    cases hbefore

/-! ## One transaction -/

/-- What is extracted from a transaction: in the order of the nodes and with their indices, each
event of a well-formed node of a known schema, and the number of malformed nodes. -/
structure ExactExtraction (P : Platform) (transaction : LedgerTransaction) (closeTime : ℕ)
    (knownSchemaUids : JsString → Bool) : Prop where
  order : ((extractCredentialMutations P transaction closeTime knownSchemaUids).mutations.map
    CredentialMutation.nodeIndex).Pairwise (· < ·)
  mutations : ∀ mutation,
    mutation ∈ (extractCredentialMutations P transaction closeTime knownSchemaUids).mutations ↔
      ∃ (nodeIndex : ℕ) (raw : JsValue) (node : NormalizedNode)
          (issuer subject credentialType uriHex : JsString) (eventType : CredentialEventType),
        (affectedNodes transaction)[nodeIndex]? = some raw ∧
        WellFormed P knownSchemaUids raw node issuer subject credentialType uriHex ∧
        EventOf node eventType ∧
        mutation = nodeMutation transaction closeTime nodeIndex node issuer subject
          (toLowerCase credentialType) uriHex eventType
  malformed :
    (extractCredentialMutations P transaction closeTime knownSchemaUids).malformedCredentialNodes
      = {nodeIndex : ℕ | ∃ raw, (affectedNodes transaction)[nodeIndex]? = some raw ∧
          MalformedNode P knownSchemaUids raw}.ncard

section Transaction

variable {P : Platform} {transaction : LedgerTransaction} {closeTime : ℕ}
  {knownSchemaUids : JsString → Bool}

theorem extractCredentialMutations_eq :
    extractCredentialMutations P transaction closeTime knownSchemaUids
      = extractNodes P transaction closeTime knownSchemaUids 0 (affectedNodes transaction) := by
  unfold extractCredentialMutations affectedNodes
  cases transaction.metadata.get (js "AffectedNodes") <;> rfl

theorem nodeIndex_of_interpretNode {nodeIndex : ℕ} {raw : JsValue} {mutation : CredentialMutation}
    (h : interpretNode P transaction closeTime knownSchemaUids nodeIndex raw = .mutation mutation) :
    mutation.nodeIndex = nodeIndex := by
  obtain ⟨_, _, _, _, _, _, -, -, rfl⟩ := interpretNode_eq_mutation.mp h
  rfl

/-- The mutations of a transaction are in the order of the nodes. -/
theorem pairwise_extractNodes : ∀ (start : ℕ) (nodes : List JsValue),
    ((extractNodes P transaction closeTime knownSchemaUids start nodes).mutations.map
      CredentialMutation.nodeIndex).Pairwise (· < ·)
  | _, [] => List.Pairwise.nil
  | start, raw :: nodes => by
      have hrest := pairwise_extractNodes (start + 1) nodes
      rw [extractNodes]
      cases hnode : interpretNode P transaction closeTime knownSchemaUids start raw with
      | ignored => exact hrest
      | malformed => exact hrest
      | mutation mutation =>
          refine List.pairwise_cons.mpr ⟨fun other hother => ?_, hrest⟩
          obtain ⟨m, hm, rfl⟩ := List.mem_map.mp hother
          obtain ⟨i, node, -, houtcome⟩ := mem_extractNodes.mp hm
          rw [nodeIndex_of_interpretNode hnode, nodeIndex_of_interpretNode houtcome]
          omega

/-- A count over a list with indices is the number of the indices. -/
theorem countP_zipIdx_eq_ncard {α : Type*} (p : α × ℕ → Bool) (xs : List α) :
    (xs.zipIdx).countP p = {i | ∃ x, xs[i]? = some x ∧ p (x, i) = true}.ncard := by
  have hnodup : (((xs.zipIdx).filter p).map Prod.snd).Nodup := by
    refine (List.filter_sublist.map _).nodup ?_
    rw [List.zipIdx_map_snd]
    exact List.nodup_range'
  have hset : {i | ∃ x, xs[i]? = some x ∧ p (x, i) = true}
      = ((((xs.zipIdx).filter p).map Prod.snd).toFinset : Set ℕ) := by
    ext i
    simp only [Set.mem_ofPred_eq, List.coe_toFinset, List.mem_map, List.mem_filter, Prod.exists,
      List.mem_zipIdx_iff_getElem?, exists_eq_right]
  rw [hset, Set.ncard_coe_finset, List.toFinset_card_of_nodup hnodup, List.length_map,
    List.countP_eq_length_filter]

/-- **The extraction is exact** when no node repeats an acceptance, and only then. -/
theorem exactExtraction_iff : ExactExtraction P transaction closeTime knownSchemaUids ↔
    ∀ raw ∈ affectedNodes transaction, ¬RepeatsAcceptance P knownSchemaUids raw := by
  constructor
  · rintro hexact raw hraw
      ⟨node, issuer, subject, credentialType, uriHex, hwell, hkind, hafter, hflags⟩
    obtain ⟨nodeIndex, hnodeIndex⟩ := List.mem_iff_getElem?.mp hraw
    obtain ⟨hevent, hnot⟩ := nodeEventType_of_repeats hkind hafter hflags
    have hmutation : interpretNode P transaction closeTime knownSchemaUids (0 + nodeIndex) raw
        = .mutation (nodeMutation transaction closeTime nodeIndex node issuer subject
            (toLowerCase credentialType) uriHex .accepted) := by
      rw [Nat.zero_add]
      exact interpretNode_eq_mutation.mpr ⟨node, issuer, subject, credentialType, uriHex, .accepted,
        hwell, hevent, rfl⟩
    have hmem := mem_extractNodes.mpr ⟨nodeIndex, raw, hnodeIndex, hmutation⟩
    rw [← extractCredentialMutations_eq, hexact.mutations] at hmem
    obtain ⟨nodeIndex', raw', node', _, _, _, _, eventType, hraw', hwell', hevent', heq⟩ := hmem
    obtain rfl : nodeIndex = nodeIndex' := congrArg CredentialMutation.nodeIndex heq
    obtain rfl : raw = raw' := Option.some.inj (hnodeIndex.symm.trans hraw')
    obtain rfl : node = node' := Option.some.inj (hwell.read.symm.trans hwell'.read)
    obtain rfl : CredentialEventType.accepted = eventType :=
      congrArg CredentialMutation.eventType heq
    exact hnot hevent'
  · intro hnone
    have hevents : ∀ {raw node issuer subject credentialType uriHex eventType},
        raw ∈ affectedNodes transaction →
        WellFormed P knownSchemaUids raw node issuer subject credentialType uriHex →
        (nodeEventType node = some eventType ↔ EventOf node eventType) := by
      intro raw node issuer subject credentialType uriHex eventType hraw hwell
      refine nodeEventType_eq_some fun hkind hafter => ?_
      by_contra hflags
      rw [Bool.not_eq_false] at hflags
      exact hnone raw hraw ⟨node, _, _, _, _, hwell, hkind, hafter, hflags⟩
    refine ⟨?_, fun mutation => ?_, ?_⟩
    · rw [extractCredentialMutations_eq]
      exact pairwise_extractNodes 0 _
    · rw [extractCredentialMutations_eq, mem_extractNodes]
      constructor
      · rintro ⟨nodeIndex, raw, hraw, hmutation⟩
        rw [Nat.zero_add] at hmutation
        obtain ⟨node, issuer, subject, credentialType, uriHex, eventType, hwell, hevent, rfl⟩ :=
          interpretNode_eq_mutation.mp hmutation
        exact ⟨nodeIndex, raw, node, issuer, subject, credentialType, uriHex, eventType, hraw,
          hwell,
          (hevents (List.mem_of_getElem? hraw) hwell).mp hevent, rfl⟩
      · rintro ⟨nodeIndex, raw, node, issuer, subject, credentialType, uriHex, eventType, hraw,
          hwell, hevent, rfl⟩
        refine ⟨nodeIndex, raw, hraw, ?_⟩
        rw [Nat.zero_add]
        exact interpretNode_eq_mutation.mpr ⟨node, issuer, subject, credentialType, uriHex,
          eventType,
          hwell, (hevents (List.mem_of_getElem? hraw) hwell).mpr hevent, rfl⟩
    · rw [extractCredentialMutations_eq, malformed_extractNodes,
        countP_zipIdx_eq_ncard fun m =>
          (interpretNode P transaction closeTime knownSchemaUids m.2 m.1).isMalformed]
      simp only [isMalformed_interpretNode]

end Transaction

/-! ## A life -/

/-- A node at which a credential becomes accepted. -/
def NormalizedNode.becomesAccepted (node : NormalizedNode) : Bool :=
  decide (node.kind = .modifiedNode) && !node.acceptedBefore && node.acceptedAfter

/-- A node at which the acceptance of a credential is withdrawn. -/
def NormalizedNode.withdraws (node : NormalizedNode) : Bool :=
  node.acceptedBefore && !node.acceptedAfter

theorem eventOf_accepted {node : NormalizedNode} :
    EventOf node .accepted ↔ node.becomesAccepted = true := by
  rw [EventOf, NormalizedNode.becomesAccepted, Bool.and_eq_true, Bool.and_eq_true,
    decide_eq_true_eq, Bool.not_eq_true', and_assoc]

/-- The nodes of one object from its creation on: only the first node may be a creation, and each
node finds the flags that the one before it left. -/
structure IsLife (nodes : List NormalizedNode) : Prop where
  once : ∀ node ∈ nodes.tail, node.kind ≠ .createdNode
  linked : nodes.IsChain fun node next => next.acceptedBefore = node.acceptedAfter

/-- After a node at which the credential is accepted there are no more acceptances than withdrawals,
after another one there may be one more. -/
theorem countP_becomesAccepted_le : ∀ {node : NormalizedNode} {nodes : List NormalizedNode},
    (node :: nodes).IsChain (fun node next => next.acceptedBefore = node.acceptedAfter) →
      nodes.countP NormalizedNode.becomesAccepted ≤ nodes.countP NormalizedNode.withdraws
        + if node.acceptedAfter then 0 else 1
  | _, [], _ => by simp
  | node, next :: nodes, h => by
      obtain ⟨hlink, hrest⟩ := List.isChain_cons_cons.mp h
      have ih := countP_becomesAccepted_le hrest
      rw [List.countP_cons, List.countP_cons, NormalizedNode.becomesAccepted,
        NormalizedNode.withdraws, hlink]
      cases node.acceptedAfter with
      | true => grind
      | false => grind

/-- **In a life** there is at most one acceptance more than there are withdrawals. -/
theorem IsLife.countP_le {nodes : List NormalizedNode} (h : IsLife nodes) :
    nodes.countP NormalizedNode.becomesAccepted
      ≤ nodes.countP NormalizedNode.withdraws + 1 := by
  cases nodes with
  | nil => simp
  | cons node nodes =>
      have hrest := countP_becomesAccepted_le h.linked
      rw [List.countP_cons, List.countP_cons, NormalizedNode.becomesAccepted,
        NormalizedNode.withdraws]
      cases node.acceptedBefore with
      | true => grind
      | false => grind

/-! ## A history -/

/-- One call of `extractCredentialMutations`. -/
structure Extraction where
  transaction : LedgerTransaction
  closeTime : ℕ
  knownSchemaUids : JsString → Bool

/-- The mutations of a history of calls. -/
def historyMutations (P : Platform) (history : List Extraction) : List CredentialMutation :=
  history.flatMap fun e =>
    (extractCredentialMutations P e.transaction e.closeTime e.knownSchemaUids).mutations

/-- The nodes of an object among some wrappers. -/
def objectNodes (ledgerObjectId : JsString) (raws : List JsValue) : List NormalizedNode :=
  (raws.filterMap readNode).filter fun node => decide (node.ledgerObjectId = ledgerObjectId)

/-- The nodes a history affected. -/
def historyNodes (history : List Extraction) : List JsValue :=
  history.flatMap fun e => affectedNodes e.transaction

/-- The mutation is the acceptance of the object. -/
def CredentialMutation.accepts (ledgerObjectId : JsString) (mutation : CredentialMutation) : Bool :=
  decide (mutation.ledgerObjectId = ledgerObjectId ∧ mutation.eventType = .accepted)

theorem objectNodes_cons (ledgerObjectId : JsString) (raw : JsValue) (raws : List JsValue) :
    objectNodes ledgerObjectId (raw :: raws)
      = objectNodes ledgerObjectId [raw] ++ objectNodes ledgerObjectId raws := by
  rw [objectNodes, objectNodes, objectNodes, ← List.filter_append, ← List.filterMap_append]
  rfl

/-- The acceptances of an object that are extracted from some nodes are acceptances of its nodes. -/
theorem countP_accepts_le {P : Platform} (transaction : LedgerTransaction) (closeTime : ℕ)
    {knownSchemaUids : JsString → Bool} (ledgerObjectId : JsString) :
    ∀ (start : ℕ) (raws : List JsValue),
      (∀ raw ∈ raws, ¬RepeatsAcceptance P knownSchemaUids raw) →
      (extractNodes P transaction closeTime knownSchemaUids start raws).mutations.countP
          (CredentialMutation.accepts ledgerObjectId)
        ≤ (objectNodes ledgerObjectId raws).countP NormalizedNode.becomesAccepted
  | _, [], _ => Nat.zero_le _
  | start, raw :: raws, h => by
      obtain ⟨hraw, hraws⟩ := List.forall_mem_cons.mp h
      have ih := countP_accepts_le transaction closeTime ledgerObjectId (start + 1) raws hraws
      rw [objectNodes_cons, List.countP_append, extractNodes]
      cases hnode : interpretNode P transaction closeTime knownSchemaUids start raw with
      | ignored => exact le_trans ih (Nat.le_add_left _ _)
      | malformed => exact le_trans ih (Nat.le_add_left _ _)
      | mutation mutation =>
          dsimp only
          rw [List.countP_cons, Nat.add_comm]
          refine Nat.add_le_add ?_ ih
          split_ifs with haccepts
          · rw [CredentialMutation.accepts, decide_eq_true_eq] at haccepts
            obtain ⟨node, issuer, subject, credentialType, uriHex, eventType, hwell, hevent, rfl⟩ :=
              interpretNode_eq_mutation.mp hnode
            obtain ⟨hid, htype⟩ := haccepts
            have hobject : node.ledgerObjectId = ledgerObjectId := hid
            obtain rfl : eventType = .accepted := htype
            have hbecomes : node.becomesAccepted = true := by
              refine eventOf_accepted.mp ((nodeEventType_eq_some fun hkind hafter => ?_).mp hevent)
              by_contra hflags
              rw [Bool.not_eq_false] at hflags
              exact hraw ⟨node, _, _, _, _, hwell, hkind, hafter, hflags⟩
            have hnodes : objectNodes ledgerObjectId [raw] = [node] := by
              rw [objectNodes, List.filterMap_cons_some hwell.read, List.filterMap_nil]
              exact List.filter_cons_of_pos (decide_eq_true hobject)
            rw [hnodes, List.countP_cons_of_pos hbecomes]
            omega
          · exact Nat.zero_le _

/-- The acceptances of an object in a history are acceptances of its nodes. -/
theorem countP_historyMutations_le {P : Platform} (ledgerObjectId : JsString) :
    ∀ {history : List Extraction},
      (∀ e ∈ history, ∀ raw ∈ affectedNodes e.transaction,
        ¬RepeatsAcceptance P e.knownSchemaUids raw) →
      (historyMutations P history).countP (CredentialMutation.accepts ledgerObjectId)
        ≤ (objectNodes ledgerObjectId (historyNodes history)).countP
          NormalizedNode.becomesAccepted
  | [], _ => Nat.zero_le _
  | e :: history, h => by
      obtain ⟨he, hhistory⟩ := List.forall_mem_cons.mp h
      have ih := countP_historyMutations_le ledgerObjectId hhistory
      have hfirst := countP_accepts_le e.transaction e.closeTime ledgerObjectId 0 _ he
      rw [historyMutations, List.flatMap_cons, List.countP_append, historyNodes,
        List.flatMap_cons, objectNodes, List.filterMap_append, List.filter_append,
        List.countP_append, extractCredentialMutations_eq]
      exact Nat.add_le_add hfirst ih

/-- **Acceptances.**  The extraction from a transaction is exact if and only if no node repeats an
acceptance.  In a history without such nodes, in the life of an object there is at most one
acceptance more than there are withdrawals, of which the ledger has none. -/
theorem credential_acceptance (P : Platform) :
    (∀ transaction closeTime knownSchemaUids,
      ExactExtraction P transaction closeTime knownSchemaUids ↔
        ∀ raw ∈ affectedNodes transaction, ¬RepeatsAcceptance P knownSchemaUids raw) ∧
    ∀ ledgerObjectId history, IsLife (objectNodes ledgerObjectId (historyNodes history)) →
      (∀ e ∈ history, ∀ raw ∈ affectedNodes e.transaction,
        ¬RepeatsAcceptance P e.knownSchemaUids raw) →
      (historyMutations P history).countP (CredentialMutation.accepts ledgerObjectId)
        ≤ (objectNodes ledgerObjectId (historyNodes history)).countP
          NormalizedNode.withdraws + 1 :=
  ⟨fun _ _ _ => exactExtraction_iff, fun _ _ hlife hhistory =>
    le_trans (countP_historyMutations_le _ hhistory) hlife.countP_le⟩

/-! ### An acceptance that is reported twice -/

/-- A platform that reads HTTPS URLs. -/
def lifecyclePlatform : Platform :=
  { Platform.sample with
    parseUrl := readHttpsUrl
    domainToAscii := some }

/-- The fields of an accepted credential. -/
def acceptedFields : JsValue :=
  .obj [(js "Issuer", .str (js "rHb9CJAWyB4rj91VRWn96DkukG4bwdtyTh")),
    (js "Subject", .str (js "rPT1Sjq2YGrBMTttX4GZHjKu9dyfzbpAYe")),
    (js "CredentialType",
      .str (js "3f3f3f3f3f3f3f3f3f3f3f3f3f3f3f3f3f3f3f3f3f3f3f3f3f3f3f3f3f3f3f3f")),
    (js "Flags", .num (JsNumber.ofNat credentialAcceptedFlag)),
    (js "URI", .str (bytesToHex (encodeUtf8 (js "https://issuer.example/c.json#xcs-sha256="
      ++ List.replicate 64 0x61))))]

/-- A transaction that modifies the credential and leaves its flags alone. -/
def touchingTransaction : LedgerTransaction where
  hash := List.replicate 64 0x62
  transaction := .obj []
  metadata := .obj [(js "AffectedNodes", .arr [.obj [(js "ModifiedNode", .obj [
    (js "LedgerEntryType", .str (js "Credential")),
    (js "LedgerIndex", .str (List.replicate 64 0x63)),
    (js "FinalFields", acceptedFields),
    (js "PreviousFields", .obj [])])]])]
  transactionIndex := 0

/-- **The credential was accepted before** the transaction, and its acceptance is extracted. -/
theorem touchingTransaction_accepts :
    ((extractCredentialMutations lifecyclePlatform touchingTransaction 0
      fun _ => true).mutations.map
        fun mutation => (mutation.ledgerObjectId, mutation.eventType))
      = [(List.replicate 64 0x63, .accepted)] ∧
    ((affectedNodes touchingTransaction).filterMap readNode).map
        (fun node => (node.acceptedBefore, node.acceptedAfter)) = [(true, true)] ∧
    ¬ExactExtraction lifecyclePlatform touchingTransaction 0 fun _ => true := by
  have hmutations : ((extractCredentialMutations lifecyclePlatform touchingTransaction 0
      fun _ => true).mutations.map fun mutation => (mutation.ledgerObjectId, mutation.eventType))
        = [(List.replicate 64 0x63, .accepted)] := by decide +kernel
  have hnodes : ((affectedNodes touchingTransaction).filterMap readNode).map
      (fun node => (node.acceptedBefore, node.acceptedAfter)) = [(true, true)] := by
    decide +kernel
  refine ⟨hmutations, hnodes, fun hexact => ?_⟩
  have hmem := List.mem_singleton_self
    ((List.replicate 64 0x63, .accepted) : JsString × CredentialEventType)
  rw [← hmutations] at hmem
  obtain ⟨mutation, hmutation, heq⟩ := List.mem_map.mp hmem
  obtain ⟨_, raw, node, _, _, _, _, eventType, hraw, hwell, hevent, rfl⟩ :=
    (hexact.mutations mutation).mp hmutation
  obtain rfl : eventType = .accepted := congrArg Prod.snd heq
  have hnode := List.mem_map_of_mem (f := fun node => (node.acceptedBefore, node.acceptedAfter))
    (List.mem_filterMap.mpr ⟨raw, List.mem_of_getElem? hraw, hwell.read⟩)
  rw [hnodes, List.mem_singleton, hevent.2.1] at hnode
  cases hnode

end Indexer
end Xcs
