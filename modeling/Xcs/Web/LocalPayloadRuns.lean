import Xcs.Web.LocalPayloadRecords

/-!
# Runs of the local payload store

A run is a list of calls on a storage that nobody else writes to.

* `IsKept.storageAfter`: what every write of the store keeps holds of the storage at all times.
* `perform_live`: an entry that has not expired outlasts every call but a clear.
* `localPayloadStore_keepsPromises` says what the store promises of a run.  A store that
  acknowledges a payload rewrites the copy that is there, and takes it out when the storage does not
  accept the new text; `localPayloadStore_loses_copy` is such a run, and `keepsCopies` excludes it.
-/

namespace Xcs
namespace Web

open Js Json Core

variable {P : Platform} {B : LocalBrowser P}

/-! ## What a call writes -/

/-- All that a storage held, the last first. -/
def LocalStorage.held (s : LocalStorage) : List StorageItems :=
  s.items :: s.past

/-- The number of entries of the store. -/
def localCount (items : StorageItems) : ℕ :=
  (items.keys.filter isLocalKey).length

theorem length_localStoreKeys (E : StorageBehaviour) (s : LocalStorage) :
    (localStoreKeys E s).length = localCount s.items :=
  ((E.order_perm s.items).filter isLocalKey).length_eq

/-- A property of the entries that is kept by what the store does: it removes entries of its own,
rewrites entries of its own, and adds one while it has fewer than its maximum. -/
structure IsKept (Q : StorageItems → Prop) : Prop where
  remove : ∀ items key, isLocalKey key = true → Q items → Q (items.delete key)
  rewrite : ∀ items key value, isLocalKey key = true → items.get key ≠ none → Q items →
    Q (items.set key value)
  add : ∀ items key value, isLocalKey key = true →
    localCount items < localPayloadStoreMaxEntries → Q items → Q (items.set key value)

variable {Q : StorageItems → Prop}

theorem IsKept.removeItem (hQ : IsKept Q) {s : LocalStorage} {key : JsString}
    (hkey : isLocalKey key = true) (h : ∀ items ∈ s.held, Q items) :
    ∀ items ∈ (s.removeItem key).held, Q items := by
  intro items hitems
  rcases List.mem_cons.mp hitems with rfl | hitems
  · exact hQ.remove _ _ hkey (h _ List.mem_cons_self)
  · exact h items hitems

/-- A loop that removes some of the keys it runs over. -/
theorem IsKept.foldl (hQ : IsKept Q) {f : LocalStorage → JsString → LocalStorage}
    (hf : ∀ s key, f s key = s ∨ f s key = s.removeItem key) (keys : List JsString) :
    (∀ key ∈ keys, isLocalKey key = true) → ∀ s : LocalStorage, (∀ items ∈ s.held, Q items) →
      ∀ items ∈ (keys.foldl f s).held, Q items := by
  induction keys with
  | nil => exact fun _ s h => h
  | cons key keys ih =>
      intro hkeys s h
      rw [List.foldl_cons]
      refine ih (fun k hk => hkeys k (List.mem_cons_of_mem _ hk)) _ ?_
      rcases hf s key with hs | hs
      · rw [hs]
        exact h
      · rw [hs]
        exact hQ.removeItem (hkeys key List.mem_cons_self) h

theorem IsKept.removeExpired (hQ : IsKept Q) (E : StorageBehaviour) (nowMs : ℤ) {s : LocalStorage}
    (h : ∀ items ∈ s.held, Q items) : ∀ items ∈ (removeExpired B E nowMs s).held, Q items := by
  refine hQ.foldl (fun s key => ?_) _ (fun key hkey => (mem_localStoreKeys.mp hkey).2) s h
  unfold removeIfExpired
  split
  · exact .inl rfl
  · split_ifs
    · exact .inr rfl
    · exact .inl rfl

theorem IsKept.setItem (hQ : IsKept Q) {E : StorageBehaviour} {s s' : LocalStorage}
    {key value : JsString} (hkey : isLocalKey key = true)
    (hroom : s.items.get key ≠ none ∨ localCount s.items < localPayloadStoreMaxEntries)
    (hs : s.setItem E key value = .ok s') (h : ∀ items ∈ s.held, Q items) :
    ∀ items ∈ s'.held, Q items := by
  unfold LocalStorage.setItem at hs
  split_ifs at hs
  rw [← Except.ok.inj hs]
  intro items hitems
  rcases List.mem_cons.mp hitems with rfl | hitems
  · rcases hroom with hroom | hroom
    · exact hQ.rewrite _ _ _ hkey hroom (h _ List.mem_cons_self)
    · exact hQ.add _ _ _ hkey hroom (h _ List.mem_cons_self)
  · exact h items hitems

theorem IsKept.writeRecord (hQ : IsKept Q) (E : StorageBehaviour) (payload : StoringPayload)
    (nowMs : ℤ) {s : LocalStorage} (h : ∀ items ∈ s.held, Q items) :
    ∀ items ∈ (writeRecord E payload nowMs s).2.held, Q items := by
  unfold Web.writeRecord
  split_ifs with hfull
  · exact h
  · rw [length_localStoreKeys, not_le] at hfull
    split
    · split
      · rename_i s' hs
        exact hQ.setItem (isLocalKey_storageKey _) (.inr hfull) hs h
      · exact h
    · exact h

theorem IsKept.storePayload (hQ : IsKept Q) (E : StorageBehaviour) (payload : StoringPayload)
    (nowMs : ℤ) {s : LocalStorage} (h : ∀ items ∈ s.held, Q items) :
    ∀ items ∈ (storePayload B E payload nowMs s).2.held, Q items := by
  have hlocal := isLocalKey_storageKey payload.cid
  unfold Web.storePayload
  cases hget : s.getItem (storageKey payload.cid) with
  | none => exact hQ.writeRecord E payload nowMs h
  | some existing =>
      have hthere : s.items.get (storageKey payload.cid) ≠ none := by
        show s.getItem (storageKey payload.cid) ≠ none
        rw [hget]
        exact Option.some_ne_none _
      have hreuse : ∀ items ∈ (reuseRecord B E payload existing s).2.held, Q items := by
        unfold reuseRecord
        split
        · exact h
        · split_ifs
          · exact h
          · split
            · rename_i s' hs
              exact hQ.setItem hlocal (.inl hthere) hs h
            · exact h
          · exact h
      dsimp only
      split
      · rename_i record s' hr
        rw [hr] at hreuse
        exact hreuse
      · rename_i e s' hr
        rw [hr] at hreuse
        split_ifs
        · exact hreuse
        · exact hQ.writeRecord E payload nowMs (hQ.removeItem hlocal hreuse)

/-- **Every call keeps it**, at every moment. -/
theorem IsKept.perform (hQ : IsKept Q) (step : LocalStep) {s : LocalStorage}
    (h : ∀ items ∈ s.held, Q items) : ∀ items ∈ (step.perform B s).2.held, Q items := by
  unfold LocalStep.perform
  cases step.operation with
  | store content acknowledged =>
      show ∀ items ∈ (storeLocalTestPayload B _ content acknowledged (some step.now) s).2.held,
        Q items
      unfold storeLocalTestPayload
      dsimp only
      split
      · exact h
      · exact hQ.storePayload _ _ _ (hQ.removeExpired _ _ h)
  | read credentialUri =>
      show ∀ items ∈ (readLocalTestPayload B credentialUri (some step.now) s).2.held, Q items
      rcases @readLocalTestPayload_storage _ B credentialUri step.now s
        with hs | ⟨cid, value, -, -, hs⟩
      · rw [hs]
        exact h
      · rw [hs]
        exact hQ.removeItem (isLocalKey_storageKey cid) h
  | clear =>
      exact hQ.foldl (fun s key => .inr rfl) _
        (fun key hkey => (mem_localStoreKeys.mp hkey).2) s h

/-- **Every run keeps it.** -/
theorem IsKept.storageAfter (hQ : IsKept Q) (steps : List LocalStep) :
    ∀ s : LocalStorage, (∀ items ∈ s.held, Q items) →
      ∀ items ∈ (storageAfter B s steps).held, Q items := by
  induction steps with
  | nil => exact fun s h => h
  | cons step steps ih => exact fun s h => ih _ (hQ.perform step h)

/-- **The entries of the store are not too many.** -/
theorem isKept_localCount_le :
    IsKept fun items => localCount items ≤ localPayloadStoreMaxEntries where
  remove items key _ h :=
    Nat.le_trans ((InsertionMap.keys_delete_sublist items key).filter isLocalKey).length_le h
  rewrite items key value _ hkey h := by
    rw [localCount, InsertionMap.keys_set_of_mem (InsertionMap.get_ne_none_iff.mp hkey)]
    exact h
  add items key value hkey hroom h := by
    by_cases hmem : key ∈ items.keys
    · rw [localCount, InsertionMap.keys_set_of_mem hmem]
      exact h
    · rw [localCount, InsertionMap.keys_set_of_notMem hmem, List.filter_append,
        List.length_append, List.filter_cons_of_pos hkey]
      exact hroom

/-- **The keys of others are left alone.** -/
theorem isKept_foreign (start : StorageItems) :
    IsKept fun items => ∀ key, isLocalKey key = false → items.get key = start.get key := by
  have hne : ∀ {key other}, isLocalKey key = true → isLocalKey other = false → other ≠ key := by
    rintro key _ hkey hother rfl
    rw [hkey] at hother
    cases hother
  constructor
  · intro items key hkey h other hother
    rw [InsertionMap.get_delete, if_neg (hne hkey hother)]
    exact h other hother
  · intro items key value hkey _ h other hother
    rw [InsertionMap.get_set, if_neg (hne hkey hother)]
    exact h other hother
  · intro items key value hkey _ h other hother
    rw [InsertionMap.get_set, if_neg (hne hkey hother)]
    exact h other hother

/-! ## What a store does -/

/-- What can come of a store on a storage without entries that are not live: nothing is written, a
new record, an entry of another content, an entry of this content, or this entry acknowledged. -/
inductive StoreCase (B : LocalBrowser P) (payload : StoringPayload) (nowMs : ℤ) (s : LocalStorage) :
    Except LocalPayloadError LocalPayloadPublication × LocalStorage → Prop
  | unwritten (e : LocalPayloadError) : StoreCase B payload nowMs s (.error e, s)
  | written (createdAt expiresAt : JsString) :
      s.getItem (storageKey payload.cid) = none →
      dateToIso nowMs = .ok createdAt →
      dateToIso (nowMs + localPayloadStoreTtlMs) = .ok expiresAt →
      StoreCase B payload nowMs s (.ok (payload.publication createdAt expiresAt),
        ⟨s.items.set (storageKey payload.cid) (recordText payload createdAt expiresAt), s.held⟩)
  | kept (value : JsString) (record : StoredLocalPayload) :
      s.getItem (storageKey payload.cid) = some value →
      parseStoredPayload B value = .ok record → record.content = payload.content →
      (payload.acknowledged = true → record.acknowledged = true) →
      StoreCase B payload nowMs s (.ok (payload.publication record.createdAt record.expiresAt), s)
  | acknowledged (value : JsString) (record : StoredLocalPayload) :
      s.getItem (storageKey payload.cid) = some value →
      parseStoredPayload B value = .ok record → record.content = payload.content →
      payload.acknowledged = true → record.acknowledged = false →
      StoreCase B payload nowMs s (.ok (payload.publication record.createdAt record.expiresAt),
        ⟨s.items.set (storageKey payload.cid) (acknowledgedText record), s.held⟩)

theorem setItem_of_accepts {E : StorageBehaviour} {s : LocalStorage} {key value : JsString}
    (h : E.accepts s.items key value = true) :
    s.setItem E key value = .ok ⟨s.items.set key value, s.held⟩ :=
  if_pos h

theorem writeRecord_cases (E : StorageBehaviour) {payload : StoringPayload} (nowMs : ℤ)
    {s : LocalStorage} (hget : s.getItem (storageKey payload.cid) = none) :
    StoreCase B payload nowMs s (writeRecord E payload nowMs s) := by
  unfold writeRecord
  split_ifs
  · exact .unwritten _
  · split
    · rename_i createdAt expiresAt hcreated hexpires
      split
      · rename_i s' hs
        unfold LocalStorage.setItem at hs
        split_ifs at hs
        rw [← Except.ok.inj hs]
        exact .written createdAt expiresAt hget hcreated hexpires
      · exact .unwritten _
    · exact .unwritten _

/-- **The cases of a store**, where a copy without the acknowledgement can be rewritten. -/
theorem storePayload_cases (E : StorageBehaviour) {payload : StoringPayload} (nowMs : ℤ)
    {s : LocalStorage}
    (hparse : ∀ value, s.getItem (storageKey payload.cid) = some value →
      ∃ record, parseStoredPayload B value = .ok record)
    (hkeeps : ∀ value record, s.getItem (storageKey payload.cid) = some value →
      parseStoredPayload B value = .ok record → record.content = payload.content →
      payload.acknowledged = true → record.acknowledged = false →
      E.accepts s.items (storageKey payload.cid) (acknowledgedText record) = true) :
    StoreCase B payload nowMs s (storePayload B E payload nowMs s) := by
  unfold storePayload
  cases hget : s.getItem (storageKey payload.cid) with
  | none => exact writeRecord_cases E nowMs hget
  | some value =>
      obtain ⟨record, hrecord⟩ := hparse value hget
      dsimp only
      unfold reuseRecord
      rw [hrecord]
      dsimp only
      by_cases hcontent : record.content = payload.content
      · rw [if_neg (not_not_intro hcontent)]
        cases hack : payload.acknowledged with
        | false =>
            refine .kept value record hget hrecord hcontent fun h => ?_
            rw [hack] at h
            cases h
        | true =>
            cases hrecordAck : record.acknowledged with
            | true => exact .kept value record hget hrecord hcontent fun _ => hrecordAck
            | false =>
                have haccepts := hkeeps value record hget hrecord hcontent hack hrecordAck
                rw [setItem_of_accepts haccepts]
                exact .acknowledged value record hget hrecord hcontent hack hrecordAck
      · rw [if_pos hcontent]
        exact .unwritten _

/-- A store of a payload with the acknowledgement can rewrite the copy that lacks it, if the storage
holds a live one. -/
def keepsCopy (B : LocalBrowser P) (s : LocalStorage) (step : LocalStep) : Bool :=
  match step.operation with
  | .store content true =>
      match prepareStoring B content true,
          (remaining B step.now s.items).get (payloadKey P content) with
      | .ok _, some value =>
          match parseStoredPayload B value with
          | .ok record =>
              record.content != content || record.acknowledged
                || step.storage.accepts (remaining B step.now s.items) (payloadKey P content)
                    (acknowledgedText record)
          | .error _ => true
      | _, _ => true
  | _ => true

theorem accepts_of_keepsCopy {s : LocalStorage} {step : LocalStep} {content value : JsString}
    {payload : StoringPayload} {record : StoredLocalPayload}
    (hkeeps : keepsCopy B s step = true) (hstep : step.operation = .store content true)
    (hpayload : prepareStoring B content true = .ok payload)
    (hget : (remaining B step.now s.items).get (payloadKey P content) = some value)
    (hparse : parseStoredPayload B value = .ok record) (hcontent : record.content = content)
    (hack : record.acknowledged = false) :
    step.storage.accepts (remaining B step.now s.items) (payloadKey P content)
      (acknowledgedText record) = true := by
  unfold keepsCopy at hkeeps
  rw [hstep] at hkeeps
  dsimp only at hkeeps
  rw [hpayload, hget] at hkeeps
  dsimp only at hkeeps
  rw [hparse] at hkeeps
  dsimp only at hkeeps
  rw [hcontent, hack, bne_self_eq_false, Bool.false_or, Bool.false_or] at hkeeps
  exact hkeeps

/-- A store is refused before it turns to the storage, or is one of the cases after the pruning. -/
theorem perform_store {step : LocalStep} {s : LocalStorage} {content : JsString}
    {acknowledged : Bool} (hkeeps : keepsCopy B s step = true)
    (hstep : step.operation = .store content acknowledged) :
    (∃ e, step.perform B s = (.stored (.error e), s)) ∨
    ∃ payload result, prepareStoring B content acknowledged = .ok payload ∧
      step.perform B s = (.stored result.1, result.2) ∧
      StoreCase B payload step.now (removeExpired B step.storage step.now s) result := by
  unfold LocalStep.perform
  rw [hstep]
  dsimp only
  unfold storeLocalTestPayload
  dsimp only
  cases hpayload : prepareStoring B content acknowledged with
  | error e => exact .inl ⟨e, rfl⟩
  | ok payload =>
      obtain ⟨hcontent, hack, -, hcid, -⟩ := prepareStoring_eq_ok.mp hpayload
      refine .inr ⟨payload, _, rfl, rfl, storePayload_cases _ _ ?_ ?_⟩
      · intro value hget
        rw [LocalStorage.getItem, items_removeExpired, get_remaining] at hget
        obtain ⟨record, hlive⟩ := hget.2 (isLocalKey_storageKey _)
        exact ⟨record, hlive.parses⟩
      · intro value record hget hparse hsame hpayloadAck hrecordAck
        rw [hack] at hpayloadAck
        subst hpayloadAck
        rw [LocalStorage.getItem, items_removeExpired, hcid] at hget
        rw [items_removeExpired, hcid]
        exact accepts_of_keepsCopy hkeeps hstep hpayload hget hparse (hsame.trans hcontent)
          hrecordAck

/-! ## Copies that last -/

/-- **What is live stays** through every call but a clear.  A store of its content may acknowledge
it. -/
theorem perform_live {step : LocalStep} {s : LocalStorage} (hkeeps : keepsCopy B s step = true)
    (hclear : step.operation ≠ .clear) {key value : JsString} {record : StoredLocalPayload}
    (hkey : isLocalKey key = true) (hget : s.getItem key = some value)
    (hlive : IsLive B step.now value record) :
    (step.perform B s).2.getItem key = some value ∨
      (∃ published, (step.perform B s).1 = .stored (.ok published)) ∧
        record.acknowledged = false ∧
        (step.perform B s).2.getItem key = some (acknowledgedText record) := by
  cases hstep : step.operation with
  | store content acknowledged =>
      rcases perform_store hkeeps hstep with ⟨e, hperform⟩ | ⟨payload, result, -, hperform, hcase⟩
      · rw [hperform]
        exact .inl hget
      · have hstays : (removeExpired B step.storage step.now s).getItem key = some value :=
          (getItem_removeExpired _ hkey).mpr ⟨hget, record, hlive⟩
        rw [hperform]
        cases hcase with
        | unwritten e => exact .inl hstays
        | kept value' record' _ _ _ _ => exact .inl hstays
        | written createdAt expiresAt hnone _ _ =>
            have hne : key ≠ storageKey payload.cid := by
              rintro rfl
              rw [hnone] at hstays
              cases hstays
            refine .inl ?_
            rw [LocalStorage.getItem, InsertionMap.get_set, if_neg hne]
            exact hstays
        | acknowledged value' record' hget' hparse' _ _ hack' =>
            by_cases hne : key = storageKey payload.cid
            · rw [← hne, hstays] at hget'
              have hsame : record' = record := by
                rw [← Option.some.inj hget', hlive.parses] at hparse'
                exact (Except.ok.inj hparse').symm
              subst hsame
              refine .inr ⟨⟨_, rfl⟩, hack', ?_⟩
              rw [LocalStorage.getItem, InsertionMap.get_set, if_pos hne]
            · refine .inl ?_
              rw [LocalStorage.getItem, InsertionMap.get_set, if_neg hne]
              exact hstays
  | read credentialUri =>
      left
      unfold LocalStep.perform
      rw [hstep]
      show (readLocalTestPayload B credentialUri (some step.now) s).2.getItem key = some value
      rcases @readLocalTestPayload_storage _ B credentialUri step.now s
        with hs | ⟨cid, value', hget', hremovable, hs⟩
      · rw [hs]
        exact hget
      · have hne : key ≠ storageKey cid := by
          rintro rfl
          rw [← Option.some.inj (hget.symm.trans hget'),
            isRemovable_eq_false_iff.mpr ⟨record, hlive⟩] at hremovable
          cases hremovable
        rw [hs, LocalStorage.getItem_removeItem, if_neg hne]
        exact hget
  | clear => exact absurd hstep hclear

/-- The storage holds a copy of a content that expires at a date and can be read. -/
def HoldsCopy (B : LocalBrowser P) (content expiresAt : JsString) (s : LocalStorage) : Prop :=
  ∃ value record inspected, s.getItem (payloadKey P content) = some value ∧
    parseStoredPayload B value = .ok record ∧ record.content = content ∧
    record.expiresAt = expiresAt ∧
    inspectCanonicalPayload B content record.acknowledged = .ok inspected

/-- A copy that has not expired lasts through a call. -/
theorem HoldsCopy.perform {step : LocalStep} {s : LocalStorage} {content expiresAt : JsString}
    (h : HoldsCopy B content expiresAt s) (hkeeps : keepsCopy B s step = true)
    (hclear : step.operation ≠ .clear) {time : ℤ} (htime : dateParse B expiresAt = some time)
    (hnow : step.now < time) : HoldsCopy B content expiresAt (step.perform B s).2 := by
  obtain ⟨value, record, inspected, hget, hparse, hcontent, hexpires, hinspected⟩ := h
  have hlive : IsLive B step.now value record := ⟨hparse, time, hexpires ▸ htime, hnow⟩
  rcases perform_live hkeeps hclear (isLocalKey_storageKey _) hget hlive
    with hsame | ⟨-, hack, hacknowledged⟩
  · exact ⟨value, record, inspected, hsame, hparse, hcontent, hexpires, hinspected⟩
  · obtain ⟨record', hparse', hcontent', -, hexpires', hack'⟩ := parse_acknowledgedText hparse hack
    exact ⟨_, record', inspected, hacknowledged, hparse', hcontent'.trans hcontent,
      hexpires'.trans hexpires, inspect_of_acknowledged hinspected fun _ => hack'⟩

/-- What a store returns: the date at which the copy that is held expires. -/
theorem perform_stored {step : LocalStep} {s : LocalStorage} {content : JsString}
    {acknowledged : Bool} (hkeeps : keepsCopy B s step = true)
    (hstep : step.operation = .store content acknowledged) {published : LocalPayloadPublication}
    (h : (step.perform B s).1 = .stored (.ok published)) :
    published.credentialUri = js "ipfs://" ++ payloadCid P content ∧
      (∃ time, dateParse B published.expiresAt = some time ∧ step.now < time) ∧
      HoldsCopy B content published.expiresAt (step.perform B s).2 := by
  rcases perform_store hkeeps hstep
    with ⟨e, hperform⟩ | ⟨payload, result, hpayload, hperform, hcase⟩
  · rw [hperform] at h
    cases h
  · obtain ⟨hcontent, hack, hinspected, hcid, -⟩ := prepareStoring_eq_ok.mp hpayload
    have hkey : storageKey payload.cid = payloadKey P content := congrArg storageKey hcid
    have huri := (isAdmissible_of_inspect hinspected).2
    rw [hperform] at h ⊢
    cases hcase with
    | unwritten e => cases h
    | written createdAt expiresAt _ hcreated hexpires =>
        cases h
        obtain ⟨hdate, record, hparse, hsame, -, hend, hrecordAck⟩ :=
          @parse_recordText _ B payload _ _ _ hcreated hexpires
        refine ⟨huri, ⟨_, hdate, ?_⟩, _, record, payload.inspected, ?_, hparse,
          hsame.trans hcontent, hend, ?_⟩
        · show step.now < step.now + 24 * 60 * 60 * 1000
          omega
        · rw [LocalStorage.getItem, InsertionMap.get_set, if_pos hkey.symm]
        · rw [hrecordAck, hack]
          exact hinspected
    | kept value record hget hparse hsame hrecordAck =>
        cases h
        have hlive := isLive_of_getItem_removeExpired (isLocalKey_storageKey _) hget hparse
        refine ⟨huri, hlive.expires, value, record, payload.inspected, hkey ▸ hget, hparse,
          hsame.trans hcontent, rfl, inspect_of_acknowledged hinspected ?_⟩
        rw [← hack]
        exact hrecordAck
    | acknowledged value record hget hparse hsame hpayloadAck hrecordAck =>
        cases h
        have hlive := isLive_of_getItem_removeExpired (isLocalKey_storageKey _) hget hparse
        obtain ⟨record', hparse', hsame', -, hend, hack'⟩ :=
          parse_acknowledgedText hparse hrecordAck
        refine ⟨huri, hlive.expires, _, record', payload.inspected, ?_, hparse',
          (hsame'.trans hsame).trans hcontent, hend,
          inspect_of_acknowledged hinspected fun _ => hack'⟩
        rw [LocalStorage.getItem, InsertionMap.get_set, if_pos hkey.symm]

/-- **A store of what is there does not extend its life.** -/
theorem perform_stored_again {step : LocalStep} {s : LocalStorage} {content value : JsString}
    {acknowledged : Bool} {record : StoredLocalPayload} (hkeeps : keepsCopy B s step = true)
    (hstep : step.operation = .store content acknowledged)
    (hget : s.getItem (payloadKey P content) = some value)
    (hlive : IsLive B step.now value record) {published : LocalPayloadPublication}
    (h : (step.perform B s).1 = .stored (.ok published)) :
    published.expiresAt = record.expiresAt := by
  rcases perform_store hkeeps hstep
    with ⟨e, hperform⟩ | ⟨payload, result, hpayload, hperform, hcase⟩
  · rw [hperform] at h
    cases h
  · obtain ⟨-, -, -, hcid, -⟩ := prepareStoring_eq_ok.mp hpayload
    have hstays : (removeExpired B step.storage step.now s).getItem (storageKey payload.cid)
        = some value := by
      rw [hcid]
      exact (getItem_removeExpired _ (isLocalKey_storageKey _)).mpr ⟨hget, record, hlive⟩
    have hsame : ∀ {value' record'}, (removeExpired B step.storage step.now s).getItem
        (storageKey payload.cid) = some value' → parseStoredPayload B value' = .ok record' →
        record'.expiresAt = record.expiresAt := by
      intro value' record' hget' hparse'
      rw [hstays] at hget'
      rw [← Option.some.inj hget', hlive.parses] at hparse'
      rw [Except.ok.inj hparse']
    rw [hperform] at h
    cases hcase with
    | unwritten e => cases h
    | written createdAt expiresAt hnone _ _ =>
        rw [hnone] at hstays
        cases hstays
    | kept value' record' hget' hparse' _ _ =>
        cases h
        exact hsame hget' hparse'
    | acknowledged value' record' hget' hparse' _ _ _ =>
        cases h
        exact hsame hget' hparse'

/-- A record of a content that passes the inspection passes the checks of a read. -/
theorem checkRecord_eq_ok {record : StoredLocalPayload} {inspected : InspectedPayload} {nowMs : ℤ}
    (h : inspectCanonicalPayload B record.content record.acknowledged = .ok inspected)
    (hnow : isTimeValue nowMs = true) :
    checkRecord B record (js "ipfs://" ++ payloadCid P record.content) nowMs = .ok
      { content := record.content
        fetchUrl := js "ipfs://" ++ payloadCid P record.content
        digestHex := bytesToHex (P.sha256 (encodeUtf8 record.content))
        byteLength := inspected.byteLength
        checkedAt := toISOString nowMs } := by
  obtain ⟨hadmissible, huri⟩ := isAdmissible_of_inspect h
  have hbytes : payloadBytes (.text record.content) = .ok (encodeUtf8 record.content) :=
    payloadBytes_eq_ok.mpr ⟨hadmissible, rfl⟩
  unfold checkRecord
  rw [h]
  show (if inspected.credentialUri ≠ _ then _ else _) = _
  rw [if_neg (not_not_intro huri), payloadCid, verifyPayloadIntegrity,
    parsePayloadUri_cidText B.readsCids, payloadDigest, hbytes]
  show (if !(bytesToHex (P.sha256 (encodeUtf8 record.content))
    == bytesToHex (P.sha256 (encodeUtf8 record.content))) then _ else _) = _
  rw [beq_self_eq_true]
  show (dateToIso nowMs >>= _) = _
  rw [dateToIso_eq_ok.mpr ⟨hnow, rfl⟩]
  rfl

/-- **A copy that has not expired is read.** -/
theorem HoldsCopy.read {step : LocalStep} {s : LocalStorage} {content expiresAt : JsString}
    (h : HoldsCopy B content expiresAt s)
    (hstep : step.operation = .read (js "ipfs://" ++ payloadCid P content)) {time : ℤ}
    (htime : dateParse B expiresAt = some time) (hnow : step.now < time) :
    ∃ answer, (step.perform B s).1 = .read (.ok answer) ∧ answer.content = content := by
  obtain ⟨value, record, inspected, hget, hparse, rfl, rfl, hinspected⟩ := h
  have hlive : IsLive B step.now value record := ⟨hparse, time, htime, hnow⟩
  have huriOk : parsePayloadUri P (js "ipfs://" ++ payloadCid P record.content)
      = .ok (.ipfs _ (payloadCid P record.content) _) := parsePayloadUri_cidText B.readsCids _
  have hanswer := checkRecord_eq_ok hinspected step.isTime
  refine ⟨_, Eq.trans ?_ (congrArg LocalOutcome.read hanswer), rfl⟩
  unfold LocalStep.perform
  rw [hstep]
  dsimp only
  unfold readLocalTestPayload
  rw [huriOk]
  dsimp only
  rw [show s.getItem (storageKey (payloadCid P record.content)) = some value from hget]
  dsimp only
  unfold readEntry
  rw [hparse]
  dsimp only
  rw [(isExpired_eq_false_iff hparse).mpr hlive]
  rfl

/-! ## Runs -/

/-- Every store of a run can rewrite the copy that it finds. -/
def keepsCopies (B : LocalBrowser P) : LocalStorage → List LocalStep → Bool
  | _, [] => true
  | s, step :: steps => keepsCopy B s step && keepsCopies B (step.perform B s).2 steps

theorem storageAfter_append (s : LocalStorage) (xs ys : List LocalStep) :
    storageAfter B s (xs ++ ys) = storageAfter B (storageAfter B s xs) ys :=
  List.foldl_append

theorem keepsCopies_append (xs ys : List LocalStep) : ∀ s : LocalStorage,
    keepsCopies B s (xs ++ ys)
      = (keepsCopies B s xs && keepsCopies B (storageAfter B s xs) ys) := by
  induction xs with
  | nil => exact fun s => rfl
  | cons step xs ih =>
      intro s
      show (keepsCopy B s step && keepsCopies B (step.perform B s).2 (xs ++ ys)) = _
      rw [ih, ← Bool.and_assoc]
      rfl

/-- A step of a run that keeps its copies keeps its copy. -/
theorem keepsCopy_storageAfter {s : LocalStorage} {steps done rest : List LocalStep}
    {step : LocalStep} (h : keepsCopies B s steps = true) (hpre : done ++ step :: rest <+: steps) :
    keepsCopy B (storageAfter B s done) step = true := by
  obtain ⟨tail, rfl⟩ := hpre
  rw [keepsCopies_append, keepsCopies_append, Bool.and_eq_true, Bool.and_eq_true] at h
  exact (Bool.and_eq_true_iff.mp h.1.2).1

/-- A copy lasts through a run that ends before it expires. -/
theorem HoldsCopy.storageAfter {content expiresAt : JsString} {time : ℤ}
    (htime : dateParse B expiresAt = some time) (steps : List LocalStep) : ∀ s : LocalStorage,
      HoldsCopy B content expiresAt s → keepsCopies B s steps = true →
      (∀ step ∈ steps, step.operation ≠ .clear ∧ step.now < time) →
      HoldsCopy B content expiresAt (storageAfter B s steps) := by
  induction steps with
  | nil => exact fun s h _ _ => h
  | cons step steps ih =>
      intro s h hkeeps hsteps
      obtain ⟨hstep, hrest⟩ := Bool.and_eq_true_iff.mp hkeeps
      obtain ⟨hclear, hnow⟩ := hsteps step List.mem_cons_self
      exact ih _ (h.perform hstep hclear htime hnow) hrest
        fun other hother => hsteps other (List.mem_cons_of_mem _ hother)

/-- **What was stored is there** when a later call comes before it expires. -/
theorem holdsCopy_of_stored {s : LocalStorage} {steps done between : List LocalStep}
    {store last : LocalStep} {content : JsString} {acknowledged : Bool}
    {published : LocalPayloadPublication}
    (hclock : (steps.map LocalStep.now).Pairwise (· ≤ ·)) (hkeeps : keepsCopies B s steps = true)
    (hpre : done ++ store :: (between ++ [last]) <+: steps)
    (hstore : store.operation = .store content acknowledged)
    (hstored : (store.perform B (storageAfter B s done)).1 = .stored (.ok published))
    (hclear : ∀ step ∈ between, step.operation ≠ .clear) :
    published.credentialUri = js "ipfs://" ++ payloadCid P content ∧
      ∃ time, dateParse B published.expiresAt = some time ∧ (last.now < time →
        HoldsCopy B content published.expiresAt
          (storageAfter B s (done ++ store :: between))) := by
  obtain ⟨huri, ⟨time, htime, hnow⟩, hholds⟩ :=
    perform_stored (keepsCopy_storageAfter hkeeps hpre) hstore hstored
  refine ⟨huri, time, htime, fun hlast => ?_⟩
  obtain ⟨tail, rfl⟩ := hpre
  rw [keepsCopies_append, keepsCopies_append, Bool.and_eq_true, Bool.and_eq_true] at hkeeps
  have hrest := (Bool.and_eq_true_iff.mp hkeeps.1.2).2
  rw [keepsCopies_append, Bool.and_eq_true] at hrest
  have hbefore : ∀ step ∈ between, step.now ≤ last.now := by
    intro step hmem
    rw [List.map_append, List.pairwise_append, List.map_append, List.pairwise_append,
      List.map_cons, List.pairwise_cons, List.map_append, List.pairwise_append] at hclock
    exact hclock.1.2.1.2.2.2 _ (List.mem_map_of_mem hmem) _ List.mem_cons_self
  rw [storageAfter_append]
  exact hholds.storageAfter htime between _ hrest.1
    fun step hmem => ⟨hclear step hmem, lt_of_le_of_lt (hbefore step hmem) hlast⟩

/-- What the store promises of a run on a storage that holds some entries at its start. -/
structure KeepsPromises (B : LocalBrowser P) (items : StorageItems) (steps : List LocalStep) :
    Prop where
  /-- There are never too many entries of the store. -/
  bounded : ∀ done : List LocalStep, done <+: steps →
    ∀ held ∈ (storageAfter B ⟨items, []⟩ done).held, localCount held ≤ localPayloadStoreMaxEntries
  /-- No call touches a key of somebody else. -/
  foreign : ∀ done : List LocalStep, done <+: steps →
    ∀ held ∈ (storageAfter B ⟨items, []⟩ done).held,
      ∀ key, isLocalKey key = false → held.get key = items.get key
  /-- A payload is read as it was stored, until it expires or is cleared. -/
  returned : ∀ (done between : List LocalStep) (store read : LocalStep) (content : JsString)
    (acknowledged : Bool) (published : LocalPayloadPublication),
    done ++ store :: (between ++ [read]) <+: steps →
    store.operation = .store content acknowledged →
    (store.perform B (storageAfter B ⟨items, []⟩ done)).1 = .stored (.ok published) →
    (∀ step ∈ between, step.operation ≠ .clear) →
    read.operation = .read published.credentialUri →
    ∃ time, dateParse B published.expiresAt = some time ∧ (read.now < time →
      ∃ answer, (read.perform B (storageAfter B ⟨items, []⟩ (done ++ store :: between))).1
        = .read (.ok answer) ∧ answer.content = content)
  /-- A payload that is stored again expires when it did. -/
  notExtended : ∀ (done between : List LocalStep) (store again : LocalStep) (content : JsString)
    (acknowledged acknowledged' : Bool) (published published' : LocalPayloadPublication),
    done ++ store :: (between ++ [again]) <+: steps →
    store.operation = .store content acknowledged →
    (store.perform B (storageAfter B ⟨items, []⟩ done)).1 = .stored (.ok published) →
    (∀ step ∈ between, step.operation ≠ .clear) →
    again.operation = .store content acknowledged' →
    (again.perform B (storageAfter B ⟨items, []⟩ (done ++ store :: between))).1
      = .stored (.ok published') →
    ∃ time, dateParse B published.expiresAt = some time ∧ (again.now < time →
      published'.expiresAt = published.expiresAt)
  /-- So does one whose copy was there at the start. -/
  copyNotExtended : ∀ (done : List LocalStep) (again : LocalStep) (content value : JsString)
    (acknowledged : Bool) (record : StoredLocalPayload) (published : LocalPayloadPublication),
    done ++ [again] <+: steps →
    again.operation = .store content acknowledged →
    (storageAfter B ⟨items, []⟩ done).getItem (payloadKey P content) = some value →
    IsLive B again.now value record →
    (again.perform B (storageAfter B ⟨items, []⟩ done)).1 = .stored (.ok published) →
    published.expiresAt = record.expiresAt
  /-- A store that fails leaves what is live as it was. -/
  failed : ∀ (done : List LocalStep) (step : LocalStep) (content : JsString)
    (acknowledged : Bool) (e : LocalPayloadError),
    done ++ [step] <+: steps →
    step.operation = .store content acknowledged →
    (step.perform B (storageAfter B ⟨items, []⟩ done)).1 = .stored (.error e) →
    ∀ key value record, isLocalKey key = true →
      (storageAfter B ⟨items, []⟩ done).getItem key = some value →
      IsLive B step.now value record →
      (storageAfter B ⟨items, []⟩ (done ++ [step])).getItem key = some value

/-- **The store keeps its promises** in every run in which a store that acknowledges a payload can
rewrite the copy that is there. -/
theorem localPayloadStore_keepsPromises {items : StorageItems} {steps : List LocalStep}
    (hcount : localCount items ≤ localPayloadStoreMaxEntries)
    (hclock : (steps.map LocalStep.now).Pairwise (· ≤ ·))
    (hkeeps : keepsCopies B ⟨items, []⟩ steps = true) : KeepsPromises B items steps where
  bounded done _ := by
    refine isKept_localCount_le.storageAfter done _ fun held hheld => ?_
    rw [List.mem_singleton.mp hheld]
    exact hcount
  foreign done _ := by
    refine (isKept_foreign items).storageAfter done _ fun held hheld key _ => ?_
    rw [List.mem_singleton.mp hheld]
  returned done between store read content acknowledged published hpre hstore hstored hclear
      hread := by
    obtain ⟨huri, time, htime, hholds⟩ :=
      holdsCopy_of_stored hclock hkeeps hpre hstore hstored hclear
    exact ⟨time, htime, fun hnow => (hholds hnow).read (huri ▸ hread) htime hnow⟩
  notExtended done between store again content acknowledged acknowledged' published published' hpre
      hstore hstored hclear hagain hstored' := by
    obtain ⟨-, time, htime, hholds⟩ := holdsCopy_of_stored hclock hkeeps hpre hstore hstored hclear
    refine ⟨time, htime, fun hnow => ?_⟩
    obtain ⟨value, record, inspected, hget, hparse, -, hexpires, -⟩ := hholds hnow
    have hlive : IsLive B again.now value record := ⟨hparse, time, hexpires ▸ htime, hnow⟩
    have hpre' : (done ++ store :: between) ++ again :: [] <+: steps := by
      rw [List.append_assoc]
      exact hpre
    rw [← hexpires]
    exact perform_stored_again (keepsCopy_storageAfter hkeeps hpre') hagain hget hlive hstored'
  copyNotExtended done again content value acknowledged record published hpre hagain hget hlive
      hstored :=
    perform_stored_again (keepsCopy_storageAfter hkeeps hpre) hagain hget hlive hstored
  failed done step content acknowledged e hpre hstep hfailed key value record hkey hget hlive := by
    have hclear : step.operation ≠ .clear := by
      rw [hstep]
      exact LocalOperation.noConfusion
    rw [storageAfter_append]
    rcases perform_live (keepsCopy_storageAfter hkeeps hpre) hclear hkey hget hlive
      with hsame | ⟨⟨published, hok⟩, -, -⟩
    · exact hsame
    · rw [hfailed] at hok
      cases hok

/-! ## A run in which a copy is lost -/

/-- The text of `sampleBytes`. -/
def sampleText : JsString :=
  canonicalText (CredentialPayload.toJs ⟨misreadContext.issuer, misreadContext.subject,
    misreadContext.schemaUid, sampleClaims⟩)

def sampleBrowser : LocalBrowser codecPlatform where
  foldKey := toLowerCase
  parseOtherDate _ := none
  readsCids := readsCids_codecPlatform

/-- A storage that takes every write, or none. -/
def storageThat (accepts : Bool) : StorageBehaviour where
  order items := items.keys
  order_perm _ := List.Perm.refl _
  accepts _ _ _ := accepts

/-- A second after the other from 2026-10-01T12:00:00Z on. -/
def sampleStep (second : ℕ) (accepts : Bool) (operation : LocalOperation)
    (h : isTimeValue (1790856000000 + 1000 * second) = true) : LocalStep where
  operation := operation
  now := 1790856000000 + 1000 * second
  isTime := h
  storage := storageThat accepts

/-- The storage of the origin, with a key of its own. -/
def originItems : StorageItems where
  entries := [(js "theme", js "dark")]
  nodup := List.nodup_singleton _

/-- A payload is stored, stored again with the acknowledgement, and read. -/
def acknowledgedRun (accepts : Bool) : List LocalStep :=
  [sampleStep 0 true (.store sampleText false) (by decide),
    sampleStep 1 accepts (.store sampleText true) (by decide),
    sampleStep 2 true (.read (js "ipfs://" ++ cidText sampleDigest)) (by decide)]

theorem localPayloadStore_keepsPromises_acknowledgedRun :
    KeepsPromises sampleBrowser originItems (acknowledgedRun true) :=
  localPayloadStore_keepsPromises (by decide) (by decide) (by decide +kernel)

/-- The outcome of a store that fails. -/
def LocalOutcome.isFailedStore : LocalOutcome → Bool
  | .stored (.error _) => true
  | _ => false

theorem LocalOutcome.exists_error {outcome : LocalOutcome} (h : outcome.isFailedStore = true) :
    ∃ e, outcome = .stored (.error e) := by
  cases outcome with
  | stored result =>
      cases result with
      | error e => exact ⟨e, rfl⟩
      | ok published => cases h
  | read result => cases h
  | cleared count => cases h

/-- **A storage that refuses the acknowledgement loses the copy.** -/
theorem localPayloadStore_loses_copy :
    localCount originItems ≤ localPayloadStoreMaxEntries ∧
      ((acknowledgedRun false).map LocalStep.now).Pairwise (· ≤ ·) ∧
      ¬KeepsPromises sampleBrowser originItems (acknowledgedRun false) := by
  refine ⟨by decide, by decide, fun h => ?_⟩
  -- The copy is live before the second store, which fails, and is gone after it.
  have hrun : ((storageAfter sampleBrowser ⟨originItems, []⟩
        ((acknowledgedRun false).take 1)).getItem (storageKey (cidText sampleDigest))).any
        (fun value => !isRemovable sampleBrowser 1790856001000 value) = true ∧
      ((sampleStep 1 false (.store sampleText true) (by decide)).perform sampleBrowser
        (storageAfter sampleBrowser ⟨originItems, []⟩
          ((acknowledgedRun false).take 1))).1.isFailedStore = true ∧
      (storageAfter sampleBrowser ⟨originItems, []⟩
        ((acknowledgedRun false).take 2)).getItem (storageKey (cidText sampleDigest)) = none := by
    decide +kernel
  obtain ⟨hcopy, hfailed, hlost⟩ := hrun
  obtain ⟨value, hget, hvalue⟩ := (Option.any_eq_true _ _).mp hcopy
  rw [Bool.not_eq_true'] at hvalue
  obtain ⟨record, hlive⟩ := isRemovable_eq_false_iff.mp hvalue
  obtain ⟨e, herror⟩ := LocalOutcome.exists_error hfailed
  have hkept := h.failed ((acknowledgedRun false).take 1)
    (sampleStep 1 false (.store sampleText true) (by decide)) sampleText true e
    (List.take_prefix 2 (acknowledgedRun false)) rfl herror _ value record (isLocalKey_storageKey _)
    hget hlive
  exact Option.some_ne_none value (hkept.symm.trans hlost)

end Web
end Xcs
