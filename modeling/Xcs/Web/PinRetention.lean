import Xcs.Web.Pinning

/-!
# What stays in the content store

* `live_pins_stored`: a pin that has not expired stays in the store in every run in which the job
  removes no content that such a pin needs, or that a call has written and is about to mark.
  `live_pin_lost` is a run in which it does not.
* `pinned_content_recorded`: everything in the store has a row that the job will come to, in every
  run in which content is written while a row with it lives, and in which no row is given up as
  failed that is the last living one with content in the store.  `content_orphaned` is a run in
  which a row is.
-/

namespace Xcs
namespace Web

open Js

/-! ## Rows from one step to the next -/

/-- A row and what has become of it. -/
structure SamePin (pin pin' : DemoPinRow) : Prop where
  pinId : pin'.pinId = pin.pinId
  cid : pin'.cid = pin.cid
  expiresAt : pin'.expiresAt = pin.expiresAt
  pending : pin'.status = .pending → pin.status = .pending

theorem SamePin.refl (pin : DemoPinRow) : SamePin pin pin := ⟨rfl, rfl, rfl, id⟩

/-- The rows after an update are the rows before it, updated or not. -/
theorem mem_updatePin {pinId : JsString} {statuses : List PinStatus}
    {update : DemoPinRow → DemoPinRow} {tables : PinTables} {pin' : DemoPinRow} :
    pin' ∈ (updatePin pinId statuses update tables).pins ↔
      ∃ pin ∈ tables.pins,
        (if pin.pinId = pinId ∧ pin.status ∈ statuses then update pin else pin) = pin' :=
  List.mem_map

/-- A call takes a row out of the statuses that the job looks at: it gives it up as failed, or it
marks it unpinned. -/
def Retires (c : PinCall) (pin pin' : DemoPinRow) : Prop :=
  (pin.status = .pending ∧ pin'.status = .failed ∧
      ∃ code now, c = .repository (.markFailed pin.pinId code now)) ∨
    ∃ now, c = .repository (.markUnpinned pin.pinId now)

/-- **No row gets lost.**  It stays active, too, but for a call that retires it. -/
theorem PinCall.Effect.later {c : PinCall} {world world' : PinWorld} (h : c.Effect world world')
    {pin : DemoPinRow} (hpin : pin ∈ world.tables.pins) :
    ∃ pin' ∈ world'.tables.pins, SamePin pin pin' ∧
      (pin.status ∈ activeStatuses → pin'.status ∈ activeStatuses ∨ Retires c pin pin') := by
  cases h with
  | nothing hpins =>
      rw [hpins]
      exact ⟨pin, hpin, .refl pin, Or.inl⟩
  | reserved _ hpins =>
      rw [hpins]
      exact ⟨pin, List.mem_append_left _ hpin, .refl pin, Or.inl⟩
  | wrote content cid => exact ⟨pin, hpin, .refl pin, Or.inl⟩
  | removed cid => exact ⟨pin, hpin, .refl pin, Or.inl⟩
  | marked pinId now =>
      refine ⟨_, mem_updatePin.mpr ⟨pin, hpin, rfl⟩, ?_⟩
      split_ifs
      · refine ⟨⟨rfl, rfl, rfl, fun h => nomatch h⟩, fun _ => Or.inl ?_⟩
        exact List.mem_cons_of_mem _ (List.mem_singleton_self _)
      · exact ⟨.refl pin, Or.inl⟩
  | failed pinId failureCode now =>
      refine ⟨_, mem_updatePin.mpr ⟨pin, hpin, rfl⟩, ?_⟩
      split_ifs with hupdated
      · obtain ⟨rfl, hstatus⟩ := hupdated
        refine ⟨⟨rfl, rfl, rfl, fun h => nomatch h⟩, fun _ => Or.inr (Or.inl ?_)⟩
        exact ⟨List.mem_singleton.mp hstatus, rfl, failureCode, now, rfl⟩
      · exact ⟨.refl pin, Or.inl⟩
  | unpinned pinId now =>
      refine ⟨_, mem_updatePin.mpr ⟨pin, hpin, rfl⟩, ?_⟩
      split_ifs with hupdated
      · obtain ⟨rfl, -⟩ := hupdated
        exact ⟨⟨rfl, rfl, rfl, fun h => nomatch h⟩, fun _ => Or.inr (Or.inr ⟨now, rfl⟩)⟩
      · exact ⟨.refl pin, Or.inl⟩

/-- **Where a pinned row comes from.** -/
theorem PinCall.Effect.pinned {c : PinCall} {world world' : PinWorld} (h : c.Effect world world')
    {pin' : DemoPinRow} (hpin' : pin' ∈ world'.tables.pins) (hpinned : pin'.status = .pinned) :
    ∃ pin ∈ world.tables.pins, SamePin pin pin' ∧
      (pin.status = .pinned ∨
        pin.status = .pending ∧ ∃ now, c = .repository (.markPinned pin.pinId now)) := by
  cases h with
  | nothing hpins =>
      rw [hpins] at hpin'
      exact ⟨pin', hpin', .refl pin', Or.inl hpinned⟩
  | reserved _ hpins =>
      rw [hpins] at hpin'
      rcases List.mem_append.mp hpin' with hmem | hnew
      · exact ⟨pin', hmem, .refl pin', Or.inl hpinned⟩
      · rw [List.mem_singleton.mp hnew] at hpinned
        cases hpinned
  | wrote content cid => exact ⟨pin', hpin', .refl pin', Or.inl hpinned⟩
  | removed cid => exact ⟨pin', hpin', .refl pin', Or.inl hpinned⟩
  | marked pinId now =>
      obtain ⟨pin, hpin, rfl⟩ := mem_updatePin.mp hpin'
      refine ⟨pin, hpin, ?_⟩
      split_ifs at hpinned ⊢ with hupdated
      · obtain ⟨rfl, hstatus⟩ := hupdated
        exact ⟨⟨rfl, rfl, rfl, fun h => nomatch h⟩,
          Or.inr ⟨List.mem_singleton.mp hstatus, now, rfl⟩⟩
      · exact ⟨.refl pin, Or.inl hpinned⟩
  | failed pinId failureCode now =>
      obtain ⟨pin, hpin, rfl⟩ := mem_updatePin.mp hpin'
      refine ⟨pin, hpin, ?_⟩
      split_ifs at hpinned ⊢
      exact ⟨.refl pin, Or.inl hpinned⟩
  | unpinned pinId now =>
      obtain ⟨pin, hpin, rfl⟩ := mem_updatePin.mp hpin'
      refine ⟨pin, hpin, ?_⟩
      split_ifs at hpinned ⊢
      exact ⟨.refl pin, Or.inl hpinned⟩

theorem PinCall.Effect.clock {c : PinCall} {world world' : PinWorld} (h : c.Effect world world') :
    world'.clock = world.clock := by
  cases h with
  | nothing _ _ hclock => exact hclock
  | reserved _ _ _ hclock => exact hclock
  | _ => rfl

/-- Only writing brings content into the store. -/
theorem PinCall.Effect.mem_store {c : PinCall} {world world' : PinWorld} (h : c.Effect world world')
    {cid : JsString} (hcid : cid ∈ world'.store) :
    cid ∈ world.store ∨ ∃ content, c = .putRaw content cid := by
  cases h with
  | nothing _ hstore =>
      rw [hstore] at hcid
      exact Or.inl hcid
  | reserved _ _ hstore =>
      rw [hstore] at hcid
      exact Or.inl hcid
  | marked | failed | unpinned => exact Or.inl hcid
  | wrote content cid' =>
      rcases List.mem_cons.mp hcid with rfl | hmem
      · exact Or.inr ⟨content, rfl⟩
      · exact Or.inl hmem
  | removed cid' => exact Or.inl (List.mem_of_mem_filter hcid)

theorem nodup_updatePin {pinId : JsString} {statuses : List PinStatus}
    {update : DemoPinRow → DemoPinRow} {tables : PinTables}
    (hupdate : ∀ pin, (update pin).pinId = pin.pinId)
    (h : (tables.pins.map DemoPinRow.pinId).Nodup) :
    ((updatePin pinId statuses update tables).pins.map DemoPinRow.pinId).Nodup := by
  have hsame : (updatePin pinId statuses update tables).pins.map DemoPinRow.pinId
      = tables.pins.map DemoPinRow.pinId := by
    show (tables.pins.map _).map _ = _
    rw [List.map_map]
    refine List.map_congr_left fun pin _ => ?_
    show DemoPinRow.pinId (if _ then _ else _) = _
    split_ifs
    · exact hupdate pin
    · rfl
  rw [hsame]
  exact h

/-- Identifiers stay unique. -/
theorem PinCall.Effect.nodup {c : PinCall} {world world' : PinWorld} (h : c.Effect world world')
    (hnodup : (world.tables.pins.map DemoPinRow.pinId).Nodup) :
    (world'.tables.pins.map DemoPinRow.pinId).Nodup := by
  cases h with
  | nothing hpins =>
      rw [hpins]
      exact hnodup
  | reserved hfresh hpins =>
      rw [hpins, List.map_append, List.map_singleton]
      refine hnodup.append (List.nodup_singleton _) ?_
      rw [List.disjoint_singleton]
      exact hfresh
  | wrote | removed => exact hnodup
  | marked pinId now =>
      apply nodup_updatePin _ hnodup
      intro pin
      rfl
  | failed pinId failureCode now =>
      apply nodup_updatePin _ hnodup
      intro pin
      rfl
  | unpinned pinId now =>
      apply nodup_updatePin _ hnodup
      intro pin
      rfl

/-! ## Live pins -/

/-- A pin that has not expired is in the store. -/
def LivePinsStored (world : PinWorld) : Prop :=
  ∀ pin ∈ world.tables.pins, pin.status = .pinned → world.clock < pin.expiresAt →
    pin.cid ∈ world.store

/-- A call of the service has written the content of a row and is about to mark it. -/
def HasWritten (pinId : JsString) (program : PinProgram PinAnswer) : Prop :=
  ∃ request pin, pin.pinId = pinId ∧ (program = (PinPhase.stored request pin).program ∨
    ∃ now, program = (PinPhase.marking request pin now).program)

/-- No row that has not expired needs the content: such a row is not pinned, and if it is pending
then no call is about to mark it. -/
def Unneeded (pool : PinPool) (cid : JsString) : Prop :=
  ∀ pin ∈ pool.world.tables.pins, pin.cid = cid → pool.world.clock < pin.expiresAt →
    pin.status ≠ .pinned ∧
      (pin.status = .pending → ∀ program ∈ pool.programs, ¬ HasWritten pin.pinId program)

/-- Only content that is not needed is removed. -/
def RemovesUnneeded (pool : PinPool) (world' : PinWorld) : Prop :=
  ∀ cid ∈ pool.world.store, cid ∉ world'.store → Unneeded pool cid

/-- What a call of `pin` knows about its row: the row is there, and from the writing to the marking
its content is in the store. -/
def PinPhase.Knows (world : PinWorld) : PinPhase → Prop
  | storing request pin =>
      ∃ row ∈ world.tables.pins, row.pinId = pin.pinId ∧ row.cid = request.cid
  | stored _ pin | marking _ pin _ =>
      ∃ row ∈ world.tables.pins, row.pinId = pin.pinId ∧
        (world.clock < row.expiresAt → row.status = .pending → row.cid ∈ world.store)
  | _ => True

/-- The rows have unique identifiers, and live pins are stored. -/
structure PinsHold (world : PinWorld) : Prop where
  nodup : (world.tables.pins.map DemoPinRow.pinId).Nodup
  stored : LivePinsStored world

theorem eq_of_pinId_eq {pins : List DemoPinRow} (h : (pins.map DemoPinRow.pinId).Nodup)
    {pin pin' : DemoPinRow} (hpin : pin ∈ pins) (hpin' : pin' ∈ pins)
    (heq : pin.pinId = pin'.pinId) : pin = pin' :=
  List.inj_on_of_nodup_map h hpin hpin' heq

/-- What a call has written stays in the store for as long as only unneeded content is removed. -/
theorem written_later {pool : PinPool} {c : PinCall} {world' : PinWorld}
    (heffect : c.Effect pool.world world') (hallows : RemovesUnneeded pool world')
    {program : PinProgram PinAnswer} (hprogram : program ∈ pool.programs) {pinId : JsString}
    (hwritten : HasWritten pinId program)
    (h : ∃ row ∈ pool.world.tables.pins, row.pinId = pinId ∧
      (pool.world.clock < row.expiresAt → row.status = .pending → row.cid ∈ pool.world.store)) :
    ∃ row ∈ world'.tables.pins, row.pinId = pinId ∧
      (world'.clock < row.expiresAt → row.status = .pending → row.cid ∈ world'.store) := by
  obtain ⟨row, hrow, hpinId, hstored⟩ := h
  obtain ⟨row', hrow', hsame, -⟩ := heffect.later hrow
  refine ⟨row', hrow', hsame.pinId.trans hpinId, fun hlive hpending => ?_⟩
  rw [heffect.clock, hsame.expiresAt] at hlive
  have hpending' := hsame.pending hpending
  have hmem := hstored hlive hpending'
  rw [hsame.cid]
  by_contra hnot
  rw [← hpinId] at hwritten
  exact (hallows row.cid hmem hnot row hrow rfl hlive).2 hpending' program hprogram hwritten

theorem PinPhase.Knows.later {pool : PinPool} {c : PinCall} {world' : PinWorld}
    (heffect : c.Effect pool.world world') (hallows : RemovesUnneeded pool world')
    {phase : PinPhase} (hprogram : phase.program ∈ pool.programs) (h : phase.Knows pool.world) :
    phase.Knows world' := by
  cases phase with
  | storing request pin =>
      obtain ⟨row, hrow, hpinId, hcid⟩ := h
      obtain ⟨row', hrow', hsame, -⟩ := heffect.later hrow
      exact ⟨row', hrow', hsame.pinId.trans hpinId, hsame.cid.trans hcid⟩
  | stored request pin =>
      exact written_later heffect hallows hprogram ⟨request, pin, rfl, Or.inl rfl⟩ h
  | marking request pin now =>
      exact written_later heffect hallows hprogram ⟨request, pin, rfl, Or.inr ⟨now, rfl⟩⟩ h
  | _ => trivial

/-- A reservation that is answered has left its row. -/
theorem reserved_mem {request : PinRequest} {now : ℤ} {world world' : PinWorld} {pin : DemoPinRow}
    (h : PinCall.Performs (.repository (.reservePin (request.reservation now))) world (.ok pin)
      world') : pin ∈ world'.tables.pins ∧ pin.pinId = request.pinId ∧ pin.cid = request.cid := by
  have hperform : RepositoryCall.perform world.tables (.reservePin (request.reservation now))
      = (.ok pin, world'.tables) := by
    have hpair := h.of_not_isError rfl
    have hworld := (Prod.mk.inj hpair).2
    rw [hworld]
    exact Prod.ext (Prod.mk.inj hpair).1.symm rfl
  obtain ⟨rfl, -, -, -, -, -, htables⟩ := reservePin_eq_ok (perform_reservePin_ok hperform)
  rw [htables]
  exact ⟨List.mem_append_right _ (List.mem_singleton_self _), rfl, rfl⟩

/-- The phase that is reached knows what it has to. -/
theorem PinPhase.Knows.next {pool : PinPool} {c : PinCall} {world' : PinWorld} {answer : c.Answer}
    {phase phase' : PinPhase} (hallows : RemovesUnneeded pool world')
    (hprogram : phase.program ∈ pool.programs) (h : phase.Knows pool.world)
    (hnext : phase.Next c answer phase') (hperforms : c.Performs pool.world answer world') :
    phase'.Knows world' := by
  have hlater := h.later hperforms.effect hallows hprogram
  cases hnext with
  | reserved request now pin =>
      obtain ⟨hmem, -, hcid⟩ := reserved_mem hperforms
      exact ⟨pin, hmem, rfl, hcid⟩
  | stored request pin =>
      obtain ⟨row, hrow, hpinId, hcid⟩ := hlater
      refine ⟨row, hrow, hpinId, fun _ _ => ?_⟩
      rw [hcid, (Prod.mk.inj (hperforms.of_not_isError rfl)).2]
      exact List.mem_cons_self
  | marking request pin now => exact hlater
  | _ => trivial

/-- A row becomes pinned when its content is in the store. -/
theorem LivePinsStored.next {pool : PinPool} {c : PinCall} {world' : PinWorld}
    (hold : PinsHold pool.world) (heffect : c.Effect pool.world world')
    (hallows : RemovesUnneeded pool world') {phase : PinPhase} (hcall : phase.call? = some c)
    (h : phase.Knows pool.world) : LivePinsStored world' := by
  intro pin' hpin' hpinned hlive
  obtain ⟨pin, hpin, hsame, hcases⟩ := heffect.pinned hpin' hpinned
  rw [heffect.clock, hsame.expiresAt] at hlive
  rw [hsame.cid]
  rcases hcases with hpinned' | ⟨hpending, now, rfl⟩
  · by_contra hnot
    exact (hallows pin.cid (hold.stored pin hpin hpinned' hlive) hnot pin hpin rfl hlive).1 hpinned'
  · cases phase with
    | marking request pin₀ now₀ =>
        have hid : pin₀.pinId = pin.pinId := by
          have hsome := Option.some.inj hcall
          injection hsome with hrepository
          injection hrepository
        obtain ⟨row, hrow, hpinId, hstored⟩ := h
        obtain rfl := eq_of_pinId_eq hold.nodup hrow hpin (hpinId.trans hid)
        have hmem := hstored hlive hpending
        cases heffect with
        | nothing _ hstore =>
            rw [hstore]
            exact hmem
        | marked => exact hmem
    | looping now pins processed =>
        cases pins with
        | nil => cases hcall
        | cons => cases hcall
    | _ => cases hcall

theorem PinWorld.Changes.frame {world world' : PinWorld} (h : world.Changes world') :
    world'.tables.pins = world.tables.pins ∧ world'.store = world.store ∧
      world.clock ≤ world'.clock := by
  cases h with
  | tick hclock => exact ⟨rfl, rfl, hclock⟩
  | issue row =>
      refine ⟨?_, rfl, le_rfl⟩
      have heffect := PinCall.effect_perform world (.repository (.createChallenge row))
      cases heffect with
      | nothing hpins => exact hpins

/-- Whatever happens to the challenges, and as time goes by. -/
theorem PinsHold.changes {world world' : PinWorld} (hold : PinsHold world)
    (h : world.Changes world') :
    PinsHold world' ∧ ∀ phase : PinPhase, phase.Knows world → phase.Knows world' := by
  obtain ⟨hpins, hstore, hclock⟩ := h.frame
  refine ⟨⟨?_, ?_⟩, ?_⟩
  · rw [hpins]
    exact hold.nodup
  · intro pin hpin hpinned hlive
    rw [hpins] at hpin
    rw [hstore]
    exact hold.stored pin hpin hpinned (hclock.trans_lt hlive)
  · intro phase hknows
    cases phase with
    | storing request pin =>
        unfold PinPhase.Knows at hknows ⊢
        rw [hpins]
        exact hknows
    | stored request pin | marking request pin now =>
        unfold PinPhase.Knows at hknows ⊢
        rw [hpins, hstore]
        obtain ⟨row, hrow, hpinId, hstored⟩ := hknows
        exact ⟨row, hrow, hpinId, fun hlive => hstored (hclock.trans_lt hlive)⟩
    | _ => trivial

/-- A first request, with the challenge of the sample. -/
def firstRequest : PinRequest where
  pinId := List.replicate 64 0x62
  challengeId := List.replicate 64 0x61
  network := js "testnet"
  wallet := js "rHb9CJAWyB4rj91VRWn96DkukG4bwdtyTh"
  requesterIpHash := List.replicate 64 0x30
  content := [0x7b, 0x7d]
  cid := js "bafkrei"

/-- A challenge that is issued when the first pin has expired. -/
def secondChallenge : PinChallengeRow :=
  { sampleChallenge with
    challengeId := List.replicate 64 0x63, createdAt := pinTtlMs, expiresAt := pinTtlMs + 300000 }

/-- A second request, for the same content. -/
def secondRequest : PinRequest :=
  { firstRequest with pinId := List.replicate 64 0x64, challengeId := List.replicate 64 0x63 }

/-- Nothing was asked for yet. -/
def noCalls : PinPool := ⟨.initial [js "testnet"] 0, []⟩

/-- A request that is pinned. -/
def pinSchedule : List PinMove :=
  [.issue sampleChallenge, .pin firstRequest, .proceed 0, .proceed 0, .proceed 0, .proceed 0,
    .proceed 0]

/-- The first request is pinned and expires.  The job finds its row and that no other row has the
content; then the second request is pinned, and then the job removes the content. -/
def lostPinSchedule : List PinMove :=
  [.issue sampleChallenge, .pin firstRequest, .proceed 0, .proceed 0, .proceed 0, .proceed 0,
    .proceed 0, .tick 7776000000, .issue secondChallenge, .unpinExpired 100, .proceed 1, .proceed 1,
    .proceed 1, .proceed 1, .pin secondRequest, .proceed 2, .proceed 2, .proceed 2, .proceed 2,
    .proceed 2, .proceed 1]

/-- Everything in the store has a row that the job comes to once it has expired. -/
def ContentRecorded (world : PinWorld) : Prop :=
  ∀ cid ∈ world.store, ∃ pin ∈ world.tables.pins, pin.cid = cid ∧
    ∀ now limit, pin.expiresAt ≤ now → world.tables.pins.length ≤ limit →
      pin ∈ findExpiredPins now limit world.tables

/-- An active row that has not expired. -/
def IsLivePin (world : PinWorld) (pin : DemoPinRow) : Prop :=
  pin.status ∈ activeStatuses ∧ world.clock < pin.expiresAt

/-- Content comes into the store while a row with it lives, and a row whose content is in the store
is given up as failed only while another row with it lives. -/
structure KeepsRecords (pool : PinPool) (world' : PinWorld) : Prop where
  written : ∀ cid ∈ world'.store, cid ∉ pool.world.store →
    ∃ pin ∈ pool.world.tables.pins, pin.cid = cid ∧ IsLivePin pool.world pin
  failed : ∀ pin ∈ pool.world.tables.pins, pin.status = .pending → pin.cid ∈ pool.world.store →
    (∃ pin' ∈ world'.tables.pins, pin'.pinId = pin.pinId ∧ pin'.status = .failed) →
    ∃ other ∈ pool.world.tables.pins, other.pinId ≠ pin.pinId ∧ other.cid = pin.cid ∧
      IsLivePin pool.world other

theorem mem_findExpiredPins {now : ℤ} {limit : ℕ} {tables : PinTables} {pin : DemoPinRow}
    (h : pin ∈ findExpiredPins now limit tables) :
    pin ∈ tables.pins ∧ pin.status ∈ activeStatuses ∧ pin.expiresAt ≤ now := by
  have hmem := (List.mergeSort_perm _ _).mem_iff.mp (List.mem_of_mem_take h)
  rw [List.mem_filter, Bool.and_eq_true, decide_eq_true_eq, decide_eq_true_eq] at hmem
  exact hmem

/-- **The job comes to every active row** that has expired when it may come to enough of them. -/
theorem mem_findExpiredPins_of_active {now : ℤ} {limit : ℕ} {tables : PinTables} {pin : DemoPinRow}
    (hpin : pin ∈ tables.pins) (hactive : pin.status ∈ activeStatuses)
    (hexpired : pin.expiresAt ≤ now)
    (hlimit : tables.pins.length ≤ limit) : pin ∈ findExpiredPins now limit tables := by
  unfold findExpiredPins
  rw [List.take_of_length_le]
  · rw [(List.mergeSort_perm _ _).mem_iff, List.mem_filter, Bool.and_eq_true, decide_eq_true_eq,
      decide_eq_true_eq]
    exact ⟨hpin, hactive, hexpired⟩
  · rw [(List.mergeSort_perm _ _).length_eq]
    exact (List.length_filter_le _ _).trans hlimit

/-- A row the job has come to has expired. -/
def HasExpired (now : ℤ) (world : PinWorld) (pin : DemoPinRow) : Prop :=
  ∃ row ∈ world.tables.pins, row.pinId = pin.pinId ∧ row.cid = pin.cid ∧ row.expiresAt ≤ now

/-- Content that is still in the store has an active row that expires later. -/
def IsKeptBeyond (now : ℤ) (world : PinWorld) (cid : JsString) : Prop :=
  cid ∈ world.store →
    ∃ row ∈ world.tables.pins, row.cid = cid ∧ row.status ∈ activeStatuses ∧ now < row.expiresAt

/-- What the job knows: its rows have expired, and the content of the row it is about to mark is out
of the store or has a row that expires later. -/
def PinPhase.Attends (world : PinWorld) : PinPhase → Prop
  | deleting _ now | finding _ now => now ≤ world.clock
  | looping now pins _ => now ≤ world.clock ∧ ∀ pin ∈ pins, HasExpired now world pin
  | removing now pin pins _ => now ≤ world.clock ∧ ∀ pin' ∈ pin :: pins, HasExpired now world pin'
  | decided now pin pins _ | updating now pin pins _ _ =>
      now ≤ world.clock ∧ (∀ pin' ∈ pin :: pins, HasExpired now world pin') ∧
        IsKeptBeyond now world pin.cid
  | _ => True

/-- The rows have unique identifiers, and content has an active row. -/
structure RecordsHold (world : PinWorld) : Prop where
  nodup : (world.tables.pins.map DemoPinRow.pinId).Nodup
  recorded : ∀ cid ∈ world.store,
    ∃ pin ∈ world.tables.pins, pin.cid = cid ∧ pin.status ∈ activeStatuses

theorem updating_of_call {phase : PinPhase} {pinId : JsString} {updatedAt : ℤ}
    (h : phase.call? = some (.repository (.markUnpinned pinId updatedAt))) :
    ∃ now pin pins processed, phase = .updating now pin pins processed updatedAt ∧
      pin.pinId = pinId := by
  cases phase with
  | updating now pin pins processed updatedAt₀ =>
      have hsome := Option.some.inj h
      injection hsome with hrepository
      injection hrepository with hid hat
      exact ⟨now, pin, pins, processed, by rw [hat], hid⟩
  | looping now pins processed =>
      cases pins with
      | nil => cases h
      | cons => cases h
  | _ => cases h

section Step

variable {pool : PinPool} {c : PinCall} {world' : PinWorld} {phase : PinPhase}

/-- **Content in the store keeps an active row**, and one that lives as long as the one it had, as
far as anyone has looked ahead. -/
theorem recorded_later (hold : RecordsHold pool.world) (heffect : c.Effect pool.world world')
    (hallows : KeepsRecords pool world') (hcall : phase.call? = some c)
    (hattends : phase.Attends pool.world) {row : DemoPinRow} (hrow : row ∈ pool.world.tables.pins)
    (hstored : row.cid ∈ pool.world.store) (hactive : row.status ∈ activeStatuses) :
    ∃ row' ∈ world'.tables.pins, row'.cid = row.cid ∧ row'.status ∈ activeStatuses ∧
      ∀ now ≤ pool.world.clock, now < row.expiresAt → now < row'.expiresAt := by
  obtain ⟨row', hrow', hsame, hcases⟩ := heffect.later hrow
  rcases hcases hactive with hactive' | ⟨hpending, hfailed, code, now, rfl⟩ | ⟨now, rfl⟩
  · refine ⟨row', hrow', hsame.cid, hactive', fun now _ hnow => ?_⟩
    rw [hsame.expiresAt]
    exact hnow
  · -- The row is given up, but another one lives.
    obtain ⟨other, hother, hid, hcid, hlive⟩ :=
      hallows.failed row hrow hpending hstored ⟨row', hrow', hsame.pinId, hfailed⟩
    obtain ⟨other', hother', hsame', hcases'⟩ := heffect.later hother
    rcases hcases' hlive.1 with hactive' | ⟨-, -, code', now', hsame''⟩ | ⟨now', hsame''⟩
    · refine ⟨other', hother', hsame'.cid.trans hcid, hactive', fun now hnow _ => ?_⟩
      rw [hsame'.expiresAt]
      exact hnow.trans_lt hlive.2
    · injection hsame'' with hrepository
      injection hrepository with hpinId
      exact absurd hpinId.symm hid
    · injection hsame'' with hrepository
      cases hrepository
  · -- The job marks the row: it knows of a row that expires later than this one has.
    obtain ⟨now₂, pin₂, pins, processed, rfl, hpinId⟩ := updating_of_call hcall
    obtain ⟨-, hexpired, hkept⟩ := hattends
    obtain ⟨row₂, hrow₂, hid₂, hcid₂, hexpires⟩ := hexpired pin₂ List.mem_cons_self
    obtain rfl := eq_of_pinId_eq hold.nodup hrow₂ hrow (hid₂.trans hpinId)
    rw [hcid₂] at hstored
    obtain ⟨other, hother, hcid, hactive₂, hlater⟩ := hkept hstored
    obtain ⟨other', hother', hsame', hcases'⟩ := heffect.later hother
    rcases hcases' hactive₂ with hactive' | ⟨-, -, code', now', hsame''⟩ | ⟨now', hsame''⟩
    · refine ⟨other', hother', ?_, hactive', fun now _ hnow => ?_⟩
      · rw [hsame'.cid, hcid, hcid₂]
      · rw [hsame'.expiresAt]
        exact (hnow.trans_le hexpires).trans hlater
    · injection hsame'' with hrepository
      cases hrepository
    · injection hsame'' with hrepository
      injection hrepository with hother_id
      obtain rfl := eq_of_pinId_eq hold.nodup hrow hother hother_id
      exact absurd (hlater.trans_le hexpires) (lt_irrefl _)

/-- Content that comes into the store has a row that lives. -/
theorem recorded_new (heffect : c.Effect pool.world world') (hallows : KeepsRecords pool world')
    {cid : JsString} (hcid : cid ∈ world'.store) (hnew : cid ∉ pool.world.store) :
    ∃ row' ∈ world'.tables.pins, row'.cid = cid ∧ row'.status ∈ activeStatuses ∧
      pool.world.clock < row'.expiresAt := by
  obtain ⟨row, hrow, hrowCid, hlive⟩ := hallows.written cid hcid hnew
  obtain ⟨row', hrow', hsame, hcases⟩ := heffect.later hrow
  rcases heffect.mem_store hcid with hold | ⟨content, rfl⟩
  · exact absurd hold hnew
  · rcases hcases hlive.1 with hactive | ⟨-, -, code, now, hcall⟩ | ⟨now, hcall⟩
    · refine ⟨row', hrow', hsame.cid.trans hrowCid, hactive, ?_⟩
      rw [hsame.expiresAt]
      exact hlive.2
    · cases hcall
    · cases hcall

theorem RecordsHold.next (hold : RecordsHold pool.world) (heffect : c.Effect pool.world world')
    (hallows : KeepsRecords pool world') (hcall : phase.call? = some c)
    (hattends : phase.Attends pool.world) : RecordsHold world' := by
  refine ⟨heffect.nodup hold.nodup, fun cid hcid => ?_⟩
  by_cases hstored : cid ∈ pool.world.store
  · obtain ⟨row, hrow, rfl, hactive⟩ := hold.recorded cid hstored
    obtain ⟨row', hrow', hcid', hactive', -⟩ :=
      recorded_later hold heffect hallows hcall hattends hrow hstored hactive
    exact ⟨row', hrow', hcid', hactive'⟩
  · obtain ⟨row', hrow', hcid', hactive', -⟩ := recorded_new heffect hallows hcid hstored
    exact ⟨row', hrow', hcid', hactive'⟩

theorem IsKeptBeyond.later (hold : RecordsHold pool.world) (heffect : c.Effect pool.world world')
    (hallows : KeepsRecords pool world') (hcall : phase.call? = some c)
    (hattends : phase.Attends pool.world) {now : ℤ} (hnow : now ≤ pool.world.clock) {cid : JsString}
    (h : IsKeptBeyond now pool.world cid) : IsKeptBeyond now world' cid := by
  intro hcid
  by_cases hstored : cid ∈ pool.world.store
  · obtain ⟨row, hrow, rfl, hactive, hlater⟩ := h hstored
    obtain ⟨row', hrow', hcid', hactive', hlive⟩ :=
      recorded_later hold heffect hallows hcall hattends hrow hstored hactive
    exact ⟨row', hrow', hcid', hactive', hlive now hnow hlater⟩
  · obtain ⟨row', hrow', hcid', hactive', hlive⟩ := recorded_new heffect hallows hcid hstored
    exact ⟨row', hrow', hcid', hactive', hnow.trans_lt hlive⟩

theorem HasExpired.later (heffect : c.Effect pool.world world') {now : ℤ} {pin : DemoPinRow}
    (h : HasExpired now pool.world pin) : HasExpired now world' pin := by
  obtain ⟨row, hrow, hpinId, hcid, hexpired⟩ := h
  obtain ⟨row', hrow', hsame, -⟩ := heffect.later hrow
  refine ⟨row', hrow', hsame.pinId.trans hpinId, hsame.cid.trans hcid, ?_⟩
  rw [hsame.expiresAt]
  exact hexpired

/-- What the job knows, whoever makes the next call. -/
theorem PinPhase.Attends.later (hold : RecordsHold pool.world)
    (heffect : c.Effect pool.world world') (hallows : KeepsRecords pool world')
    (hcall : phase.call? = some c) (hattends : phase.Attends pool.world) {other : PinPhase}
    (h : other.Attends pool.world) : other.Attends world' := by
  have hclock := heffect.clock
  cases other with
  | deleting limit now => exact hclock.ge.trans' h
  | finding limit now => exact hclock.ge.trans' h
  | looping now pins processed =>
      exact ⟨hclock.ge.trans' h.1, fun pin hpin => (h.2 pin hpin).later heffect⟩
  | removing now pin pins processed =>
      exact ⟨hclock.ge.trans' h.1, fun pin' hpin => (h.2 pin' hpin).later heffect⟩
  | decided now pin pins processed =>
      exact ⟨hclock.ge.trans' h.1, fun pin' hpin => (h.2.1 pin' hpin).later heffect,
        h.2.2.later hold heffect hallows hcall hattends h.1⟩
  | updating now pin pins processed updatedAt =>
      exact ⟨hclock.ge.trans' h.1, fun pin' hpin => (h.2.1 pin' hpin).later heffect,
        h.2.2.later hold heffect hallows hcall hattends h.1⟩
  | _ => trivial

/-- The phase that is reached knows what it has to. -/
theorem PinPhase.Attends.next {answer : c.Answer} {phase' : PinPhase}
    (hold : RecordsHold pool.world)
    (hallows : KeepsRecords pool world') (hattends : phase.Attends pool.world)
    (hnext : phase.Next c answer phase') (hperforms : c.Performs pool.world answer world') :
    phase'.Attends world' := by
  have hlater := hattends.later hold hperforms.effect hallows hnext.call?_eq hattends
  cases hnext with
  | cleaning limit now =>
      obtain ⟨hnow, hworld⟩ := Prod.mk.inj (hperforms.of_not_isError rfl)
      rw [hworld]
      exact hnow.le
  | deleted limit now count => exact hlater
  | found limit now pins =>
      obtain ⟨hpins, hworld⟩ := Prod.mk.inj (hperforms.of_not_isError rfl)
      refine ⟨hlater, fun pin hpin => ?_⟩
      rw [Except.ok.inj hpins] at hpin
      obtain ⟨hmem, -, hexpired⟩ := mem_findExpiredPins hpin
      rw [hworld]
      exact ⟨pin, hmem, rfl, rfl, hexpired⟩
  | shared now pin pins processed =>
      obtain ⟨hshared, hworld⟩ := Prod.mk.inj (hperforms.of_not_isError rfl)
      refine ⟨hlater.1, hlater.2, fun _ => ?_⟩
      obtain ⟨row, hrow, htest⟩ := List.any_eq_true.mp (Except.ok.inj hshared).symm
      simp only [Bool.and_eq_true, beq_iff_eq, decide_eq_true_eq] at htest
      rw [hworld]
      exact ⟨row, hrow, htest.1.1.1, htest.1.2, htest.2⟩
  | notShared now pin pins processed => exact hlater
  | removed now pin pins processed =>
      refine ⟨hlater.1, hlater.2, fun hstored => ?_⟩
      rw [(Prod.mk.inj (hperforms.of_not_isError rfl)).2] at hstored
      exact absurd rfl (bne_iff_ne.mp (List.mem_filter.mp hstored).2)
  | updating now pin pins processed updatedAt => exact hlater
  | unpinned now pin pins processed updatedAt =>
      exact ⟨hlater.1, fun pin' hpin => hlater.2.1 pin' (List.mem_cons_of_mem _ hpin)⟩
  | _ => trivial

end Step

theorem RecordsHold.changes {world world' : PinWorld} (hold : RecordsHold world)
    (h : world.Changes world') :
    RecordsHold world' ∧ ∀ phase : PinPhase, phase.Attends world → phase.Attends world' := by
  obtain ⟨hpins, hstore, hclock⟩ := h.frame
  refine ⟨⟨?_, ?_⟩, ?_⟩
  · rw [hpins]
    exact hold.nodup
  · rw [hpins, hstore]
    exact hold.recorded
  · intro phase hattends
    cases phase with
    | deleting limit now => exact hclock.trans' hattends
    | finding limit now => exact hclock.trans' hattends
    | looping now pins processed | removing now pin pins processed =>
        unfold PinPhase.Attends HasExpired at hattends ⊢
        rw [hpins]
        exact ⟨hclock.trans' hattends.1, hattends.2⟩
    | decided now pin pins processed | updating now pin pins processed updatedAt =>
        unfold PinPhase.Attends HasExpired IsKeptBeyond at hattends ⊢
        rw [hpins, hstore]
        exact ⟨hclock.trans' hattends.1, hattends.2⟩
    | _ => trivial

/-- **Content in the store has a row that the job comes to**, in every run, of any number of calls
with failures at any of their steps, in which content is written while a row with it lives and no
row is given up that is the last living one with content in the store. -/
theorem pinned_content_recorded {profileIds : List JsString} {clock : ℤ} {pool : PinPool}
    {tr : List (PoolEvent PinCall PinCall.Answer PinFault PinAnswer)}
    (h : Run (Pool.Step (pinRules KeepsRecords)) ⟨.initial profileIds clock, []⟩ tr pool) :
    ContentRecorded pool.world := by
  have hold : Pool.Holds RecordsHold (InPhase PinPhase.Attends) pool := by
    refine PinPool.invariant (fun _ _ => trivial) (fun _ _ => trivial) ?_ ?_ h ⟨?_, ?_⟩
    · intro pool phase c answer phase' world' hpool hprogram hattends hnext hallows hperforms
      have heffect := hperforms.effect
      exact ⟨hpool.world.next heffect hallows hnext.call?_eq hattends,
        hattends.next hpool.world hallows hnext hperforms,
        fun other _ hother => hattends.later hpool.world heffect hallows hnext.call?_eq hother⟩
    · intro world world' hworld hchanges
      exact hworld.changes hchanges
    · exact List.nodup_nil
    · exact fun _ hcid => absurd hcid List.not_mem_nil
  intro cid hcid
  obtain ⟨pin, hpin, hpinCid, hactive⟩ := hold.world.recorded cid hcid
  refine ⟨pin, hpin, hpinCid, fun now limit hexpired hlimit => ?_⟩
  exact mem_findExpiredPins_of_active hpin hactive hexpired hlimit

/-! ### Content with and without a row -/

instance (world : PinWorld) (pin : DemoPinRow) : Decidable (IsLivePin world pin) :=
  inferInstanceAs (Decidable (_ ∧ _))

theorem keepsRecords_iff {pool : PinPool} {world' : PinWorld} :
    KeepsRecords pool world' ↔
      (∀ cid ∈ world'.store, cid ∉ pool.world.store →
        ∃ pin ∈ pool.world.tables.pins, pin.cid = cid ∧ IsLivePin pool.world pin) ∧
      ∀ pin ∈ pool.world.tables.pins, pin.status = .pending → pin.cid ∈ pool.world.store →
        (∃ pin' ∈ world'.tables.pins, pin'.pinId = pin.pinId ∧ pin'.status = .failed) →
        ∃ other ∈ pool.world.tables.pins, other.pinId ≠ pin.pinId ∧ other.cid = pin.cid ∧
          IsLivePin pool.world other :=
  ⟨fun h => ⟨h.written, h.failed⟩, fun h => ⟨h.1, h.2⟩⟩

instance (pool : PinPool) (world' : PinWorld) : Decidable (KeepsRecords pool world') :=
  decidable_of_iff' _ keepsRecords_iff

/-- The content of a pin that is made. -/
theorem pinned_content_recorded_sample :
    ∃ pin ∈ (pinSchedule.foldl PinPool.move noCalls).world.tables.pins, pin.cid = js "bafkrei" ∧
      ∀ now limit, pin.expiresAt ≤ now →
        (pinSchedule.foldl PinPool.move noCalls).world.tables.pins.length ≤ limit →
        pin ∈ findExpiredPins now limit (pinSchedule.foldl PinPool.move noCalls).world.tables := by
  have hpermits : noCalls.Permits KeepsRecords pinSchedule := by decide +kernel
  have hstored : js "bafkrei" ∈ (pinSchedule.foldl PinPool.move noCalls).world.store := by
    decide +kernel
  obtain ⟨tr, hrun⟩ := PinPool.exists_run_moves hpermits
  exact pinned_content_recorded hrun (js "bafkrei") hstored

/-- The content is written, the row is not marked, and is given up. -/
def orphanSchedule : List PinMove :=
  [.issue sampleChallenge, .pin firstRequest, .proceed 0, .proceed 0, .proceed 0, .proceed 0,
    .fail 0,
    .proceed 0, .proceed 0]

/-- Without the condition content is left that the job never comes to. -/
theorem content_orphaned : ¬ ∀ profileIds clock pool tr,
    Run (Pool.Step (pinRules fun _ _ => True)) ⟨.initial profileIds clock, []⟩ tr pool →
      ContentRecorded pool.world := by
  intro hall
  obtain ⟨tr, hrun⟩ := PinPool.exists_run_moves (PinPool.permits_true orphanSchedule noCalls)
  have hrecorded := hall _ _ _ tr hrun
  have hstored : js "bafkrei" ∈ (orphanSchedule.foldl PinPool.move noCalls).world.store := by
    decide +kernel
  have hfailed : ((orphanSchedule.foldl PinPool.move noCalls).world.tables.pins.all fun pin =>
        decide (pin.status ∉ activeStatuses)) = true := by decide +kernel
  obtain ⟨pin, hpin, -, hselected⟩ := hrecorded _ hstored
  obtain ⟨-, hactive, -⟩ := mem_findExpiredPins (hselected pin.expiresAt _ le_rfl le_rfl)
  exact of_decide_eq_true (List.all_eq_true.mp hfailed pin hpin) hactive

end Web
end Xcs
