import Xcs.Core.SchemaResolution
import Xcs.Run.Outcomes

/-!
# Resolution over two catalogs

A registration is resolved over the schemas that were registered before it.  Two catalogs that agree
about these resolve it alike, whatever else they hold: both accept it, with the same lineage and the
same fields up to their order, or both refuse it with the same code.  The messages may differ: what
one catalog does not have, the other may have too late.

* `SameBefore` says that two catalogs agree about the schemas registered before some coordinates.
* `resolve_agrees` is the congruence of the recursion, and `resolveSchema_agrees` that of
  `resolveSchema`.
-/

namespace Xcs
namespace Core

open Js Json

/-! ## Codes -/

/-- Two errors of the package with one code. -/
def SameCode (error error' : Thrown) : Prop :=
  ∃ e e', error = .xcs e ∧ error' = .xcs e' ∧ e.code = e'.code

/-- Whatever a computation throws has the code. -/
def ThrowsOnly (code : XcsErrorCode) {α : Type} (x : Except Thrown α) : Prop :=
  ∀ error, x = .error error → ∃ e, error = .xcs e ∧ e.code = code

section ThrowsOnly

variable {code : XcsErrorCode} {α β : Type}

theorem throwsOnly_failXcs (message path : JsString) (details : List (JsString × JsString)) :
    ThrowsOnly code (failXcs code message path details : Except Thrown α) := by
  rintro _ ⟨⟩
  exact ⟨_, rfl, rfl⟩

theorem throwsOnly_ok (a : α) : ThrowsOnly code (.ok a) := by
  rintro _ ⟨⟩

theorem ThrowsOnly.bind {x : Except Thrown α} {f : α → Except Thrown β}
    (hx : ThrowsOnly code x) (hf : ∀ a, ThrowsOnly code (f a)) : ThrowsOnly code (x >>= f) := by
  intro error h
  cases x with
  | error e =>
      cases h
      exact hx _ rfl
  | ok a => exact hf a error h

/-- Two computations that throw one code have the same outcome when they return alike. -/
theorem ThrowsOnly.sameOutcome {R : α → β → Prop} {x : Except Thrown α} {y : Except Thrown β}
    (hx : ThrowsOnly code x) (hy : ThrowsOnly code y)
    (hxy : ∀ a, x = .ok a → ∃ b, y = .ok b ∧ R a b) (hyx : ∀ b, y = .ok b → ∃ a, x = .ok a) :
    SameOutcome SameCode R x y := by
  refine .of_ok hxy hyx fun error error' herror herror' => ?_
  obtain ⟨e, rfl, hcode⟩ := hx error herror
  obtain ⟨e', rfl, hcode'⟩ := hy error' herror'
  exact ⟨e, e', rfl, rfl, hcode.trans hcode'.symm⟩

end ThrowsOnly

theorem throwsOnly_requireReference (uid : JsString) (relation : SchemaRelation)
    (context : SchemaResolutionContext) :
    ThrowsOnly .invalidSchemaReference (requireReference uid relation context) := by
  rw [requireReference]
  split
  · exact throwsOnly_failXcs _ _ _
  · split_ifs
    · exact throwsOnly_failXcs _ _ _
    · exact throwsOnly_failXcs _ _ _
    · exact throwsOnly_ok _

theorem throwsOnly_mergeFields (fields own : SchemaFields) :
    ThrowsOnly .invalidSchemaReference (mergeFields fields own) := by
  rw [mergeFields]
  induction own generalizing fields with
  | nil => exact throwsOnly_ok _
  | cons member own ih =>
      obtain ⟨name, descriptor⟩ := member
      rw [addFields]
      split_ifs
      · rintro _ ⟨⟩
        exact ⟨_, rfl, rfl⟩
      · exact ih _

theorem throwsOnly_requirePredecessor (schema : SchemaDefinition)
    (context : SchemaResolutionContext) :
    ThrowsOnly .invalidSchemaReference (requirePredecessor schema context) := by
  rw [requirePredecessor]
  cases schema.supersedes with
  | none => exact throwsOnly_ok _
  | some uid =>
      refine (throwsOnly_requireReference _ _ _).bind fun previous => ?_
      split_ifs
      · exact throwsOnly_failXcs _ _ _
      · exact throwsOnly_ok _

/-! ## Catalogs that agree -/

/-- Two entries of one schema, but for the order of members in their definitions. -/
structure SameEntry (entry entry' : RegisteredSchema) : Prop where
  coordinates : entry.toSchemaCoordinates = entry'.toSchemaCoordinates
  uid : entry.uid = entry'.uid
  definition : ∃ d d', parseSchema entry.definition = .ok d ∧
    parseSchema entry'.definition = .ok d' ∧ d.canon = d'.canon

theorem SameEntry.symm {a b : RegisteredSchema} (h : SameEntry a b) : SameEntry b a := by
  obtain ⟨d, d', hd, hd', hcanon⟩ := h.definition
  exact ⟨h.coordinates.symm, h.uid.symm, d', d, hd', hd, hcanon.symm⟩

theorem SameEntry.trans {a b c : RegisteredSchema} (hab : SameEntry a b) (hbc : SameEntry b c) :
    SameEntry a c := by
  obtain ⟨d, d', hd, hd', hcanon⟩ := hab.definition
  obtain ⟨e, e', he, he', hcanon'⟩ := hbc.definition
  obtain rfl : d' = e := Except.ok.inj (hd'.symm.trans he)
  exact ⟨hab.coordinates.trans hbc.coordinates, hab.uid.trans hbc.uid, d, e', hd, he',
    hcanon.trans hcanon'⟩

/-- The definitions of two entries of one schema are parsed alike. -/
theorem SameEntry.parses {a b : RegisteredSchema} (h : SameEntry a b) :
    SameOutcome SameCode (fun d d' => d.canon = d'.canon) (parseSchema a.definition)
      (parseSchema b.definition) := by
  obtain ⟨d, d', hd, hd', hcanon⟩ := h.definition
  rw [hd, hd']
  exact .ok hcanon

/-- The second catalog has the schemas of the first that were registered before the coordinates. -/
def HasBefore (context : SchemaCoordinates) (catalog catalog' : SchemaLookup) : Prop :=
  ∀ uid entry, catalog uid = some entry → isEarlier entry.toSchemaCoordinates context = true →
    ∃ entry', catalog' uid = some entry' ∧ SameEntry entry entry'

/-- Two catalogs agree about the schemas registered before the coordinates. -/
structure SameBefore (context : SchemaCoordinates) (catalog catalog' : SchemaLookup) : Prop where
  left : HasBefore context catalog catalog'
  right : HasBefore context catalog' catalog

theorem SameBefore.symm {context : SchemaCoordinates} {catalog catalog' : SchemaLookup}
    (h : SameBefore context catalog catalog') : SameBefore context catalog' catalog :=
  ⟨h.right, h.left⟩

/-- What was registered before an earlier schema was registered before a later one. -/
theorem SameBefore.mono {context context' : SchemaCoordinates} {catalog catalog' : SchemaLookup}
    (h : SameBefore context catalog catalog') (hearlier : isEarlier context' context = true) :
    SameBefore context' catalog catalog' where
  left := fun uid entry hfound hlt => h.left uid entry hfound (isEarlier_trans hlt hearlier)
  right := fun uid entry hfound hlt => h.right uid entry hfound (isEarlier_trans hlt hearlier)

section Agreement

variable {context : SchemaCoordinates} {catalog catalog' : SchemaLookup}

theorem SameBefore.refers (h : SameBefore context catalog catalog') {uid : JsString}
    {registered : RegisteredSchema} (hrefers : Refers catalog uid context registered) :
    ∃ registered', Refers catalog' uid context registered' ∧ SameEntry registered registered' := by
  obtain ⟨hfound, huid, hnetwork, hearlier⟩ := hrefers
  obtain ⟨registered', hfound', hsame⟩ := h.left uid registered hfound hearlier
  refine ⟨registered', ⟨hfound', hsame.uid.symm.trans huid, ?_, ?_⟩, hsame⟩
  · rw [← congrArg SchemaCoordinates.networkId hsame.coordinates]
    exact hnetwork
  · rw [← hsame.coordinates]
    exact hearlier

theorem SameBefore.replaces (h : SameBefore context catalog catalog')
    {schema schema' : SchemaDefinition} (hsupersedes : schema.supersedes = schema'.supersedes)
    (hreplaces : Replaces catalog schema context) : Replaces catalog' schema' context := by
  intro uid huid
  rw [← hsupersedes] at huid
  obtain ⟨previous, hrefers, hpublisher⟩ := hreplaces uid huid
  obtain ⟨previous', hrefers', hsame⟩ := h.refers hrefers
  refine ⟨previous', hrefers', ?_⟩
  rw [← congrArg SchemaCoordinates.publisher hsame.coordinates]
  exact hpublisher

theorem requireReference_agrees (h : SameBefore context catalog catalog') (uid : JsString)
    (relation : SchemaRelation) :
    SameOutcome SameCode (fun registered registered' => SameEntry registered registered' ∧
        isEarlier registered.toSchemaCoordinates context = true)
      (requireReference uid relation ⟨context, catalog⟩)
      (requireReference uid relation ⟨context, catalog'⟩) := by
  refine (throwsOnly_requireReference _ _ _).sameOutcome (throwsOnly_requireReference _ _ _)
    (fun registered hfound => ?_) fun registered hfound => ?_
  · obtain ⟨registered', hrefers, hsame⟩ := h.refers (requireReference_eq_ok.mp hfound)
    exact ⟨registered', requireReference_eq_ok.mpr hrefers, hsame,
      (requireReference_eq_ok.mp hfound).2.2.2⟩
  · obtain ⟨registered', hrefers, -⟩ := h.symm.refers (requireReference_eq_ok.mp hfound)
    exact ⟨registered', requireReference_eq_ok.mpr hrefers⟩

/-! ## Resolution -/

/-- Two resolutions of one schema, but for the order of members. -/
structure SameResolved (resolved resolved' : ResolvedSchema) : Prop where
  definition : resolved.definition.canon = resolved'.definition.canon
  fields : canonFields resolved.fields = canonFields resolved'.fields
  lineage : resolved.lineage = resolved'.lineage
  names : (resolved.fields.map (·.1)).Nodup

/-- The fields and the lineage of the ancestors of a schema, but for the order of members. -/
structure SameAncestors (ancestors ancestors' : SchemaFields × List JsString) : Prop where
  fields : canonFields ancestors.1 = canonFields ancestors'.1
  lineage : ancestors.2 = ancestors'.2
  names : (ancestors.1.map (·.1)).Nodup

theorem mergeFields_agrees {fields fields' own own' : SchemaFields}
    (hfields : canonFields fields = canonFields fields') (hown : canonFields own = canonFields own')
    (hnames : (fields.map (·.1)).Nodup) :
    SameOutcome SameCode (fun merged merged' => canonFields merged = canonFields merged' ∧
        (merged.map (·.1)).Nodup) (mergeFields fields own) (mergeFields fields' own') := by
  refine (throwsOnly_mergeFields _ _).sameOutcome (throwsOnly_mergeFields _ _)
    (fun merged hmerged => ?_) fun merged hmerged => ?_
  · obtain ⟨hextends, rfl⟩ := mergeFields_eq_ok.mp hmerged
    have hnodup := hextends.nodup hnames
    exact ⟨_, mergeFields_eq_ok.mpr ⟨hextends.congr hfields hown, rfl⟩,
      canonFields_append hfields hown hnodup, hnodup⟩
  · obtain ⟨hextends, rfl⟩ := mergeFields_eq_ok.mp hmerged
    exact ⟨_, mergeFields_eq_ok.mpr ⟨hextends.congr hfields.symm hown.symm, rfl⟩⟩

theorem requirePredecessor_agrees (h : SameBefore context catalog catalog')
    {schema schema' : SchemaDefinition} (hsupersedes : schema.supersedes = schema'.supersedes) :
    SameOutcome SameCode (fun _ _ => True) (requirePredecessor schema ⟨context, catalog⟩)
      (requirePredecessor schema' ⟨context, catalog'⟩) := by
  refine (throwsOnly_requirePredecessor _ _).sameOutcome (throwsOnly_requirePredecessor _ _)
    (fun _ hok => ?_) fun _ hok => ?_
  · exact ⟨(), requirePredecessor_eq_ok.mpr
      (h.replaces hsupersedes (requirePredecessor_eq_ok.mp hok)), trivial⟩
  · exact ⟨(), requirePredecessor_eq_ok.mpr
      (h.symm.replaces hsupersedes.symm (requirePredecessor_eq_ok.mp hok))⟩

theorem resolveOwn_agrees (h : SameBefore context catalog catalog')
    {schema schema' : SchemaDefinition} (hschema : schema.canon = schema'.canon)
    {ancestors ancestors' : SchemaFields × List JsString}
    (hancestors : SameAncestors ancestors ancestors') :
    SameOutcome SameCode SameResolved (resolveOwn schema ⟨context, catalog⟩ ancestors)
      (resolveOwn schema' ⟨context, catalog'⟩ ancestors') := by
  obtain ⟨-, -, hown, -, hsupersedes⟩ := SchemaDefinition.canon_eq_iff.mp hschema
  refine (mergeFields_agrees hancestors.fields hown hancestors.names).bind ?_
  rintro merged merged' ⟨hmerged, hnodup⟩
  rw [countSchemaFields_eq_of_canonFields_eq hmerged]
  have hcount : SameOutcome SameCode (fun _ _ => True)
      (rejectSchema (decide (countSchemaFields merged' > maxSchemaFields))
        (js "Resolved schema exceeds 256 fields") (js "$.fields"))
      (rejectSchema (decide (countSchemaFields merged' > maxSchemaFields))
        (js "Resolved schema exceeds 256 fields") (js "$.fields")) := by
    rw [rejectSchema]
    split_ifs
    · exact .error ⟨_, _, rfl, rfl, rfl⟩
    · exact .ok trivial
  refine hcount.bind fun _ _ _ => (requirePredecessor_agrees h hsupersedes).bind fun _ _ _ => ?_
  exact .ok ⟨hschema, hmerged, hancestors.lineage, hnodup⟩

/-- Two resolvers resolve alike what was registered before the coordinates. -/
def ResolversAgree (context : SchemaCoordinates) (catalog catalog' : SchemaLookup)
    (resolver resolver' : SchemaResolver) : Prop :=
  ∀ (schema schema' : SchemaDefinition) (context' : SchemaCoordinates) (visiting : List JsString),
    schema.canon = schema'.canon → isEarlier context' context = true →
    SameOutcome SameCode SameResolved (resolver schema ⟨context', catalog⟩ visiting)
      (resolver' schema' ⟨context', catalog'⟩ visiting)

theorem inherited_agrees (h : SameBefore context catalog catalog')
    {schema schema' : SchemaDefinition} (hparent : schema.parent = schema'.parent)
    {resolver : Option SchemaResolver}
    (hresolver : ∀ r ∈ resolver, ResolversAgree context catalog catalog' r r)
    (visiting : List JsString) :
    SameOutcome SameCode SameAncestors (inherited resolver schema ⟨context, catalog⟩ visiting)
      (inherited resolver schema' ⟨context, catalog'⟩ visiting) := by
  rw [inherited, inherited, ← hparent]
  cases schema.parent with
  | none => exact .ok ⟨rfl, rfl, List.nodup_nil⟩
  | some uid =>
      dsimp only
      cases resolver with
      | none => exact .error ⟨_, _, rfl, rfl, rfl⟩
      | some resolver =>
          cases decide (uid ∈ visiting) with
          | true => exact .error ⟨_, _, rfl, rfl, rfl⟩
          | false =>
              dsimp only
              refine (requireReference_agrees h uid .extends).bind ?_
              rintro registered registered' ⟨hsame, hearlier⟩
              refine hsame.parses.bind fun d d' hcanon => ?_
              rw [← hsame.coordinates]
              refine (hresolver resolver rfl d d' registered.toSchemaCoordinates
                (uid :: visiting) hcanon hearlier).bind ?_
              rintro resolved resolved' ⟨-, hfields, hlineage, hnames⟩
              refine .ok ⟨hfields, ?_, hnames⟩
              dsimp only
              rw [hlineage]

/-- **Catalogs that agree resolve alike**, with as many levels as there may be. -/
theorem resolve_agrees (h : SameBefore context catalog catalog') (levels : ℕ)
    {schema schema' : SchemaDefinition} (hschema : schema.canon = schema'.canon)
    (visiting : List JsString) :
    SameOutcome SameCode SameResolved (resolve levels schema ⟨context, catalog⟩ visiting)
      (resolve levels schema' ⟨context, catalog'⟩ visiting) := by
  induction levels generalizing schema schema' context visiting with
  | zero =>
      obtain ⟨-, -, -, hparent, -⟩ := SchemaDefinition.canon_eq_iff.mp hschema
      refine (inherited_agrees h hparent (fun _ hr => (by cases hr)) visiting).bind ?_
      exact fun _ _ hancestors => resolveOwn_agrees h hschema hancestors
  | succ levels ih =>
      obtain ⟨-, -, -, hparent, -⟩ := SchemaDefinition.canon_eq_iff.mp hschema
      have hresolver : ∀ r ∈ some (resolve levels),
          ResolversAgree context catalog catalog' r r := by
        rintro _ ⟨⟩ other other' context' visiting' hother hearlier
        exact ih (h.mono hearlier) hother visiting'
      refine (inherited_agrees h hparent hresolver visiting).bind ?_
      exact fun _ _ hancestors => resolveOwn_agrees h hschema hancestors

/-- **`resolveSchema` sees nothing of a catalog but the schemas registered before its context**, and
of these nothing of the order of members. -/
theorem resolveSchema_agrees (P : Platform) (h : SameBefore context catalog catalog')
    {input : JsValue} {schema : SchemaDefinition} (hinput : parseSchema input = .ok schema) :
    SameOutcome SameCode SameResolved (resolveSchema P input ⟨context, catalog⟩)
      (resolveSchema P input ⟨context, catalog'⟩) := by
  rw [resolveSchema, resolveSchema]
  dsimp only
  split_ifs
  · exact .error ⟨_, _, rfl, rfl, rfl⟩
  · rw [hinput]
    exact resolve_agrees h _ rfl []

end Agreement

end Core
end Xcs
