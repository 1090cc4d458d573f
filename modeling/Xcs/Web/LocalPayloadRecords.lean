import Xcs.Web.LocalPayloadStore

/-!
# What the records of the local payload store say

A record is read from the text of an entry.  What the store writes reads back: `parse_recordText`
for a new record and `parse_acknowledgedText` for one that is acknowledged later.

* `items_removeExpired`: whatever the order in which the storage enumerates its keys, the pruning
  leaves the same entries.
* `prepareStoring_eq_ok`: what is known of a payload that passes the checks.
-/

namespace Xcs
namespace Web

open Js Json Core

variable {P : Platform} {B : LocalBrowser P}

/-! ## Reading a record -/

/-- The members of a record are as `parseStoredPayload` wants them. -/
structure StoredLocalPayload.IsRecord (B : LocalBrowser P) (record : StoredLocalPayload) :
    Prop where
  version : isVersionOne (record.members.lookup (js "version")) = true
  content : record.members.lookup (js "content") = some (.str record.content)
  createdAt : record.members.lookup (js "createdAt") = some (.str record.createdAt)
  expiresAt : record.members.lookup (js "expiresAt") = some (.str record.expiresAt)
  acknowledged :
    readAcknowledgement (record.members.lookup acknowledgementKey) = some record.acknowledged
  lifetime : ∃ created, dateParse B record.createdAt = some created ∧
    dateParse B record.expiresAt = some (created + localPayloadStoreTtlMs)

theorem parseStoredMembers_eq_ok {members : Members} {record : StoredLocalPayload} :
    parseStoredMembers B members = .ok record ↔ record.members = members ∧ record.IsRecord B := by
  constructor
  · intro h
    unfold parseStoredMembers at h
    split at h
    · rename_i content createdAt expiresAt acknowledged hcontent hcreated hexpires hack
      split at h
      · rename_i created expires hparsed hparsed'
        split_ifs at h with hchecks
        · rw [Bool.and_eq_true, beq_iff_eq] at hchecks
          rw [← Except.ok.inj h]
          refine ⟨rfl, hchecks.1, hcontent, hcreated, hexpires, hack, created, hparsed, ?_⟩
          rw [hparsed', ← hchecks.2]
          congr 1
          omega
        · cases h
      · cases h
    · cases h
  · rintro ⟨rfl, hversion, hcontent, hcreated, hexpires, hack, created, hparsed, hparsed'⟩
    have hlifetime : created + localPayloadStoreTtlMs - created = localPayloadStoreTtlMs := by
      omega
    unfold parseStoredMembers
    rw [hcontent, hcreated, hexpires, hack]
    dsimp only
    rw [hparsed, hparsed']
    dsimp only
    rw [hversion, hlifetime, Bool.true_and, if_pos (beq_self_eq_true _)]

theorem parseStoredPayload_eq_ok {value : JsString} {record : StoredLocalPayload} :
    parseStoredPayload B value = .ok record ↔
      jsonParse value = some (.obj record.members) ∧ record.IsRecord B := by
  unfold parseStoredPayload
  split
  · rename_i members hparse
    rw [parseStoredMembers_eq_ok, hparse, Option.some.injEq, JsValue.obj.injEq]
    exact and_congr_left fun _ => eq_comm
  · rename_i hparse
    constructor
    · intro h
      cases h
    · rintro ⟨h, -⟩
      exact absurd h (hparse record.members)

/-! ## Writing a record -/

/-- A record whose members are looked up in a text that was written. -/
theorem parse_render {members : Members} {record : StoredLocalPayload}
    (hkeys : (members.map (·.1)).Nodup) (hdefined : noUndefined (.obj members) = true)
    (hrecord : (StoredLocalPayload.mk members record.content record.createdAt record.expiresAt
      record.acknowledged).IsRecord B) :
    ∃ record', parseStoredPayload B (render (.obj members)) = .ok record' ∧
      record'.content = record.content ∧ record'.createdAt = record.createdAt ∧
      record'.expiresAt = record.expiresAt ∧ record'.acknowledged = record.acknowledged := by
  obtain ⟨members', hparse, hlookup⟩ := exists_jsonParse_render_obj hkeys hdefined
  obtain ⟨hversion, hcontent, hcreated, hexpires, hack, hlifetime⟩ := hrecord
  dsimp only at hversion hcontent hcreated hexpires hack hlifetime
  refine ⟨⟨members', record.content, record.createdAt, record.expiresAt, record.acknowledged⟩,
    parseStoredPayload_eq_ok.mpr ⟨hparse, ?_, ?_, ?_, ?_, ?_, hlifetime⟩, rfl, rfl, rfl, rfl⟩
  · show isVersionOne (members'.lookup (js "version")) = true
    rw [hlookup]
    cases hv : members.lookup (js "version") with
    | none =>
        rw [hv] at hversion
        cases hversion
    | some v =>
        rw [hv] at hversion
        cases v with
        | num n =>
            have hn : n = .ofNat 1 := of_decide_eq_true hversion
            rw [hn]
            decide +kernel
        | _ => cases hversion
  · show members'.lookup (js "content") = _
    rw [hlookup, hcontent]
    rfl
  · show members'.lookup (js "createdAt") = _
    rw [hlookup, hcreated]
    rfl
  · show members'.lookup (js "expiresAt") = _
    rw [hlookup, hexpires]
    rfl
  · show readAcknowledgement (members'.lookup acknowledgementKey) = some record.acknowledged
    rw [hlookup]
    cases ha : members.lookup acknowledgementKey with
    | none =>
        rw [ha] at hack
        exact hack
    | some v =>
        rw [ha] at hack
        cases v with
        | bool b => exact hack
        | _ => cases hack

/-- **An acknowledged record reads back**, with the dates it had. -/
theorem parse_acknowledgedText {value : JsString} {record : StoredLocalPayload}
    (h : parseStoredPayload B value = .ok record) (hack : record.acknowledged = false) :
    ∃ record', parseStoredPayload B (acknowledgedText record) = .ok record' ∧
      record'.content = record.content ∧ record'.createdAt = record.createdAt ∧
      record'.expiresAt = record.expiresAt ∧ record'.acknowledged = true := by
  obtain ⟨hparse, hversion, hcontent, hcreated, hexpires, hread, hlifetime⟩ :=
    parseStoredPayload_eq_ok.mp h
  obtain ⟨hdefined, hdistinct⟩ := noUndefined_jsonParse hparse
  rw [JsValue.distinctKeys_obj, Bool.and_eq_true, decide_eq_true_eq] at hdistinct
  have habsent : record.members.lookup acknowledgementKey = none := by
    rw [hack] at hread
    cases ha : record.members.lookup acknowledgementKey with
    | none => rfl
    | some v =>
        rw [ha] at hread
        cases v with
        | bool b => cases b <;> cases hread
        | _ => cases hread
  have hother : ∀ key, key ≠ acknowledgementKey →
      (setMember record.members (acknowledgementKey, .bool true)).lookup key
        = record.members.lookup key := by
    intro key hkey
    rw [lookup_setMember, if_neg hkey]
  obtain ⟨record', hrecord⟩ := @parse_render _ B
    (setMember record.members (acknowledgementKey, .bool true))
    ⟨[], record.content, record.createdAt, record.expiresAt, true⟩
    (nodup_setMember _ hdistinct.1) (noUndefined_setMember hdefined rfl)
    { version := by rw [hother _ (by decide)]; exact hversion
      content := by rw [hother _ (by decide)]; exact hcontent
      createdAt := by rw [hother _ (by decide)]; exact hcreated
      expiresAt := by rw [hother _ (by decide)]; exact hexpires
      acknowledged := by rw [lookup_setMember, if_pos rfl]; rfl
      lifetime := hlifetime }
  exact ⟨record', hrecord⟩

theorem dateParse_toISOString {time : ℤ} (h : isTimeValue time = true) :
    dateParse B (toISOString time) = some time := by
  unfold dateParse
  rw [isoTime_toISOString h]

theorem dateToIso_eq_ok {time : ℤ} {text : JsString} :
    dateToIso time = .ok text ↔ isTimeValue time = true ∧ text = toISOString time := by
  unfold dateToIso
  split_ifs with h
  · rw [Except.ok.injEq]
    exact ⟨fun ht => ⟨h, ht.symm⟩, fun ht => ht.2.symm⟩
  · exact ⟨fun ht => (by cases ht), fun ht => absurd ht.1 h⟩

/-- The text of a record with dates that are a lifetime apart. -/
theorem parse_recordText_of_dates (payload : StoringPayload) {createdAt expiresAt : JsString}
    (hlifetime : ∃ created, dateParse B createdAt = some created ∧
      dateParse B expiresAt = some (created + localPayloadStoreTtlMs)) :
    ∃ record, parseStoredPayload B (recordText payload createdAt expiresAt) = .ok record ∧
      record.content = payload.content ∧ record.createdAt = createdAt ∧
      record.expiresAt = expiresAt ∧ record.acknowledged = payload.acknowledged := by
  have hversion : isVersionOne (some (.num (.ofNat 1))) = true := decide_eq_true rfl
  have hkeys : ([js "version", js "content", js "createdAt", js "expiresAt"]).Nodup := by decide
  have hkeys' : ([js "version", js "content", js "createdAt", js "expiresAt",
    acknowledgementKey]).Nodup := by decide
  unfold recordText
  cases hack : payload.acknowledged with
  | false =>
      exact @parse_render _ B _ ⟨[], payload.content, createdAt, expiresAt, false⟩ hkeys rfl
        ⟨hversion, rfl, rfl, rfl, rfl, hlifetime⟩
  | true =>
      exact @parse_render _ B _ ⟨[], payload.content, createdAt, expiresAt, true⟩ hkeys' rfl
        ⟨hversion, rfl, rfl, rfl, rfl, hlifetime⟩

/-- **A new record reads back**, with the dates it is written with. -/
theorem parse_recordText (payload : StoringPayload) {nowMs : ℤ} {createdAt expiresAt : JsString}
    (hcreated : dateToIso nowMs = .ok createdAt)
    (hexpires : dateToIso (nowMs + localPayloadStoreTtlMs) = .ok expiresAt) :
    dateParse B expiresAt = some (nowMs + localPayloadStoreTtlMs) ∧
    ∃ record, parseStoredPayload B (recordText payload createdAt expiresAt) = .ok record ∧
      record.content = payload.content ∧ record.createdAt = createdAt ∧
      record.expiresAt = expiresAt ∧ record.acknowledged = payload.acknowledged := by
  obtain ⟨hnow, hcreated⟩ := dateToIso_eq_ok.mp hcreated
  obtain ⟨hend, hexpires⟩ := dateToIso_eq_ok.mp hexpires
  have hstart : dateParse B createdAt = some nowMs :=
    hcreated ▸ dateParse_toISOString hnow
  have hdate : dateParse B expiresAt = some (nowMs + localPayloadStoreTtlMs) :=
    hexpires ▸ dateParse_toISOString hend
  exact ⟨hdate, parse_recordText_of_dates payload ⟨nowMs, hstart, hdate⟩⟩

/-! ## Live entries -/

/-- The text of an entry is a record that expires after a time. -/
structure IsLive (B : LocalBrowser P) (nowMs : ℤ) (value : JsString) (record : StoredLocalPayload) :
    Prop where
  parses : parseStoredPayload B value = .ok record
  expires : ∃ time, dateParse B record.expiresAt = some time ∧ nowMs < time

theorem isExpired_eq_false_iff {value : JsString} {record : StoredLocalPayload} {nowMs : ℤ}
    (h : parseStoredPayload B value = .ok record) :
    (dateParse B record.expiresAt).any (· ≤ nowMs) = false ↔ IsLive B nowMs value record := by
  obtain ⟨-, -, -, -, -, -, created, -, hexpires⟩ := parseStoredPayload_eq_ok.mp h
  rw [hexpires, Option.any_some, decide_eq_false_iff_not, not_le]
  constructor
  · exact fun hlt => ⟨h, _, hexpires, hlt⟩
  · rintro ⟨-, time, htime, hlt⟩
    rw [Option.some.inj (hexpires.symm.trans htime)]
    exact hlt

/-- An entry stays when it is live. -/
theorem isRemovable_eq_false_iff {value : JsString} {nowMs : ℤ} :
    isRemovable B nowMs value = false ↔ ∃ record, IsLive B nowMs value record := by
  unfold isRemovable
  split
  · rename_i record hparse
    rw [isExpired_eq_false_iff hparse]
    constructor
    · exact fun h => ⟨record, h⟩
    · rintro ⟨record', h⟩
      rw [Except.ok.inj (hparse.symm.trans h.parses)]
      exact h
  · rename_i e hparse
    constructor
    · intro h
      cases h
    · rintro ⟨record, h⟩
      rw [h.parses] at hparse
      cases hparse

/-! ## The pruning -/

/-- What is left of the entries when those of the store that are not live are taken out. -/
def remaining (B : LocalBrowser P) (nowMs : ℤ) (items : StorageItems) : StorageItems :=
  items.retain fun e => !(isLocalKey e.1 && isRemovable B nowMs e.2)

theorem get_remaining {nowMs : ℤ} {items : StorageItems} {key value : JsString} :
    (remaining B nowMs items).get key = some value ↔ items.get key = some value ∧
      (isLocalKey key = true → ∃ record, IsLive B nowMs value record) := by
  rw [remaining, InsertionMap.get_retain_eq_some_iff, Bool.not_eq_true', Bool.and_eq_false_imp,
    isRemovable_eq_false_iff]

/-- One round removes the entry of its key, when it is not live. -/
theorem items_removeIfExpired (nowMs : ℤ) (s : LocalStorage) (key : JsString) :
    (removeIfExpired B nowMs s key).items
      = s.items.retain fun e => !(decide (e.1 = key) && isRemovable B nowMs e.2) := by
  unfold removeIfExpired LocalStorage.getItem
  cases hget : s.items.get key with
  | none =>
      refine (InsertionMap.retain_eq_self fun e he => ?_).symm
      have hne : e.1 ≠ key := by
        rintro rfl
        exact InsertionMap.get_eq_none_iff.mp hget (List.mem_map_of_mem (f := Prod.fst) he)
      rw [decide_eq_false hne]
      rfl
  | some value =>
      have hvalue : ∀ e ∈ s.items.entries, e.1 = key → e.2 = value := by
        rintro e he rfl
        exact Option.some.inj ((InsertionMap.get_eq_some_iff.mpr he).symm.trans hget)
      dsimp only
      split_ifs with hremovable
      · refine InsertionMap.retain_congr fun e he => ?_
        by_cases hkey : e.1 = key
        · rw [hvalue e he hkey, hremovable, hkey]
          simp
        · simp [hkey]
      · refine (InsertionMap.retain_eq_self fun e he => ?_).symm
        by_cases hkey : e.1 = key
        · rw [hvalue e he hkey, Bool.eq_false_of_not_eq_true hremovable, Bool.and_false]
          rfl
        · rw [decide_eq_false hkey]
          rfl

/-- The rounds of the pruning, over any keys. -/
theorem items_foldl_removeIfExpired (nowMs : ℤ) (keys : List JsString) :
    ∀ s : LocalStorage, (keys.foldl (removeIfExpired B nowMs) s).items
      = s.items.retain fun e => !(decide (e.1 ∈ keys) && isRemovable B nowMs e.2) := by
  induction keys with
  | nil =>
      intro s
      refine (InsertionMap.retain_eq_self fun e _ => ?_).symm
      simp
  | cons key keys ih =>
      intro s
      rw [List.foldl_cons, ih, items_removeIfExpired, InsertionMap.retain_retain]
      refine InsertionMap.retain_congr fun e _ => ?_
      by_cases hkey : e.1 = key
      · cases isRemovable B nowMs e.2 <;> simp [hkey]
      · simp [hkey]

theorem mem_localStoreKeys {E : StorageBehaviour} {s : LocalStorage} {key : JsString} :
    key ∈ localStoreKeys E s ↔ key ∈ s.items.keys ∧ isLocalKey key = true := by
  rw [localStoreKeys, List.mem_filter, (E.order_perm s.items).mem_iff]

/-- **The pruning does not depend on the order of the keys**: what is not live goes, and nothing
else. -/
theorem items_removeExpired (E : StorageBehaviour) (nowMs : ℤ) (s : LocalStorage) :
    (removeExpired B E nowMs s).items = remaining B nowMs s.items := by
  rw [removeExpired, items_foldl_removeIfExpired, remaining]
  refine InsertionMap.retain_congr fun e he => ?_
  have hmem : e.1 ∈ s.items.keys := List.mem_map_of_mem (f := Prod.fst) he
  have hiff : decide (e.1 ∈ localStoreKeys E s) = isLocalKey e.1 := by
    rw [Bool.eq_iff_iff, decide_eq_true_eq, mem_localStoreKeys]
    exact ⟨fun h => h.2, fun h => ⟨hmem, h⟩⟩
  rw [hiff]

theorem getItem_removeExpired (E : StorageBehaviour) {nowMs : ℤ} {s : LocalStorage}
    {key value : JsString} (hkey : isLocalKey key = true) :
    (removeExpired B E nowMs s).getItem key = some value ↔
      s.getItem key = some value ∧ ∃ record, IsLive B nowMs value record := by
  rw [LocalStorage.getItem, items_removeExpired, get_remaining, forall_prop_of_true hkey]
  rfl

/-- A record that is there after the pruning is live. -/
theorem isLive_of_getItem_removeExpired {E : StorageBehaviour} {nowMs : ℤ} {s : LocalStorage}
    {key value : JsString} {record : StoredLocalPayload} (hkey : isLocalKey key = true)
    (hget : (removeExpired B E nowMs s).getItem key = some value)
    (hparse : parseStoredPayload B value = .ok record) : IsLive B nowMs value record := by
  obtain ⟨-, record', hlive⟩ := (getItem_removeExpired E hkey).mp hget
  rw [Except.ok.inj (hparse.symm.trans hlive.parses)]
  exact hlive

/-! ## What a read does to the storage -/

theorem LocalStorage.getItem_removeItem (s : LocalStorage) (key other : JsString) :
    (s.removeItem key).getItem other = if other = key then none else s.getItem other :=
  InsertionMap.get_delete s.items key other

/-- A read changes nothing, or removes an entry that is not live. -/
theorem readLocalTestPayload_storage (credentialUri : JsString) (nowMs : ℤ) (s : LocalStorage) :
    (readLocalTestPayload B credentialUri (some nowMs) s).2 = s ∨
      ∃ cid value, s.getItem (storageKey cid) = some value ∧
        isRemovable B nowMs value = true ∧
        (readLocalTestPayload B credentialUri (some nowMs) s).2
          = s.removeItem (storageKey cid) := by
  unfold readLocalTestPayload
  split
  · exact .inl rfl
  · exact .inl rfl
  · rename_i uri cid digestHex _
    split
    · exact .inl rfl
    · rename_i value hget
      unfold readEntry
      split
      · rename_i e hparse
        refine .inr ⟨cid, value, hget, ?_, rfl⟩
        rw [isRemovable, hparse]
      · rename_i record hparse
        dsimp only
        split_ifs with hexpired
        · refine .inr ⟨cid, value, hget, ?_, rfl⟩
          rw [isRemovable, hparse]
          exact hexpired
        · exact .inl rfl

/-! ## Payloads that pass the checks -/

theorem ofThrown_eq_ok {α : Type} {result : Except Thrown α} {a : α} :
    ofThrown result = .ok a ↔ result = .ok a := by
  cases result with
  | ok b => rw [ofThrown, Except.ok.injEq, Except.ok.injEq]
  | error e =>
      constructor <;>
        · intro h
          cases h

theorem inspectCanonicalPayload_eq_ok {content : JsString} {acknowledged : Bool}
    {inspected : InspectedPayload} :
    inspectCanonicalPayload B content acknowledged = .ok inspected ↔
      ¬((encodeUtf8 content).length = 0 ∨ localPayloadStoreMaxBytes < (encodeUtf8 content).length) ∧
      ∃ parsed, parseCanonical P content = .ok parsed ∧
        (acknowledged = false → findSensitiveFieldPath B parsed (js "$") = none) ∧
        ∃ uri, createIpfsPayloadUri P (.text content) = .ok uri ∧
          inspected = ⟨uri, (encodeUtf8 content).length⟩ := by
  unfold inspectCanonicalPayload
  dsimp only
  split_ifs with hsize
  · constructor
    · intro h
      cases h
    · intro h
      exact absurd hsize h.1
  · rw [and_iff_right hsize]
    simp only [bind_eq_ok]
    refine exists_congr fun parsed => and_congr_right fun _ => ?_
    cases hsensitive : findSensitiveFieldPath B parsed (js "$") with
    | none => simp only [bind_eq_ok, ofThrown_eq_ok, pure_eq_ok', implies_true, true_and]
    | some path =>
        cases acknowledged with
        | true => simp only [bind_eq_ok, ofThrown_eq_ok, pure_eq_ok', Bool.true_eq_false,
            false_implies, true_and]
        | false => simp only [reduceCtorEq, true_implies, false_and]

/-- The identifier of a content, as it is written. -/
def payloadCid (P : Platform) (content : JsString) : JsString :=
  cidText (P.sha256 (encodeUtf8 content))

/-- The key of the entry of a content. -/
def payloadKey (P : Platform) (content : JsString) : JsString :=
  storageKey (payloadCid P content)

theorem isLocalKey_storageKey (cid : JsString) : isLocalKey (storageKey cid) = true :=
  List.isPrefixOf_iff_prefix.mpr ⟨cid, rfl⟩

/-- What the inspection knows of a content that passes it. -/
theorem isAdmissible_of_inspect {content : JsString} {acknowledged : Bool}
    {inspected : InspectedPayload}
    (h : inspectCanonicalPayload B content acknowledged = .ok inspected) :
    (PayloadContent.text content).isAdmissible = true ∧
      inspected.credentialUri = js "ipfs://" ++ payloadCid P content := by
  obtain ⟨-, _, -, -, uri, huri, rfl⟩ := inspectCanonicalPayload_eq_ok.mp h
  exact createIpfsPayloadUri_eq_ok.mp huri

/-- A content that passes the inspection without an acknowledgement passes it with one. -/
theorem inspect_of_acknowledged {content : JsString} {acknowledged acknowledged' : Bool}
    {inspected : InspectedPayload}
    (h : inspectCanonicalPayload B content acknowledged = .ok inspected)
    (hack : acknowledged = true → acknowledged' = true) :
    inspectCanonicalPayload B content acknowledged' = .ok inspected := by
  obtain ⟨hsize, parsed, hparsed, hsensitive, huri⟩ := inspectCanonicalPayload_eq_ok.mp h
  refine inspectCanonicalPayload_eq_ok.mpr ⟨hsize, parsed, hparsed, fun hack' => ?_, huri⟩
  exact hsensitive (Bool.eq_false_of_not_eq_true fun ht => Bool.eq_false_iff.mp hack' (hack ht))

theorem prepareStoring_eq_ok {content : JsString} {acknowledged : Bool}
    {payload : StoringPayload} :
    prepareStoring B content acknowledged = .ok payload ↔
      payload.content = content ∧ payload.acknowledged = acknowledged ∧
      inspectCanonicalPayload B content acknowledged = .ok payload.inspected ∧
      payload.cid = payloadCid P content ∧
      payload.digestHex = bytesToHex (P.sha256 (encodeUtf8 content)) := by
  unfold prepareStoring
  simp only [bind_eq_ok, ofThrown_eq_ok]
  constructor
  · rintro ⟨inspected, hinspected, parsedUri, hparsed, h⟩
    obtain ⟨-, huri⟩ := isAdmissible_of_inspect hinspected
    rw [huri, payloadCid, parsePayloadUri_cidText B.readsCids] at hparsed
    rw [← Except.ok.inj hparsed] at h
    dsimp only at h
    rw [pure_eq_ok'] at h
    rw [h]
    exact ⟨rfl, rfl, hinspected, rfl, rfl⟩
  · rintro ⟨rfl, rfl, hinspected, hcid, hdigest⟩
    obtain ⟨-, huri⟩ := isAdmissible_of_inspect hinspected
    refine ⟨_, hinspected, _, by rw [huri]; exact parsePayloadUri_cidText B.readsCids _, ?_⟩
    dsimp only
    rw [pure_eq_ok', ← hdigest]
    show _ = StoringPayload.mk _ _ _ (payloadCid P payload.content) _
    rw [← hcid]

end Web
end Xcs
