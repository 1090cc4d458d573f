import Mathlib.Data.List.Sort
import Xcs.Db.Tables
import Xcs.Run.Basic

/-!
# The tables of demo pinning

A wallet asks for a challenge, signs it and spends it on a pin.  `reservePin` consumes the challenge
and inserts a pending row in one transaction, after it has counted the reservations of the wallet
and of the address within the last day.  The other functions move a row from one status to the next.

* `reservePin_eq_ok` says when a reservation is made and what it leaves, and `rejected_unchanged`
  that a reservation that is not made leaves everything as it is.
* `reservations_single_use_bounded` is the bound of the quota for every window of a day, whatever
  clocks the calls were made with.
-/

namespace Xcs
namespace Web

open Js Db

/-! ## Rows -/

/-- What is thrown: a `PinningError`, or an error of the database or of the content store. -/
inductive PinFault where
  | pinning (code : JsString) (statusCode : ℕ)
  | database
  | store
  deriving DecidableEq

/-- A row of `pin_challenges`. -/
structure PinChallengeRow where
  challengeId : JsString
  profileId : JsString
  wallet : JsString
  requesterIpHash : JsString
  message : JsString
  expiresAt : ℤ
  usedAt : Option ℤ
  createdAt : ℤ
  deriving DecidableEq

def PinChallengeRow.checks (row : PinChallengeRow) : List (JsString × Bool) :=
  [(js "pin_challenges_expiry", decide (row.createdAt < row.expiresAt)),
    (js "pin_challenges_id", isHashColumn row.challengeId),
    (js "pin_challenges_ip_hash", isHashColumn row.requesterIpHash),
    (js "pin_challenges_wallet", isAddressColumn row.wallet)]

/-- The statuses of a pin. -/
inductive PinStatus where
  | pending
  | pinned
  | failed
  | unpinned
  deriving DecidableEq

/-- A row of `demo_pins`. -/
structure DemoPinRow where
  pinId : JsString
  challengeId : JsString
  profileId : JsString
  wallet : JsString
  requesterIpHash : JsString
  cid : JsString
  byteLength : ℕ
  status : PinStatus
  failureCode : Option JsString
  expiresAt : ℤ
  unpinnedAt : Option ℤ
  createdAt : ℤ
  updatedAt : ℤ
  deriving DecidableEq

/-- `^b[a-z2-7]+$` -/
def isCidColumn (s : JsString) : Bool :=
  s.head? == some 0x62 && decide (2 ≤ s.length)
    && s.tail.all fun u => isLower u || (0x32 ≤ u && u ≤ 0x37)

def DemoPinRow.checks (row : DemoPinRow) : List (JsString × Bool) :=
  [(js "demo_pins_byte_length", decide (1 ≤ row.byteLength ∧ row.byteLength ≤ 65536)),
    (js "demo_pins_cid", isCidColumn row.cid),
    (js "demo_pins_failure_shape", (row.status == .failed) == row.failureCode.isSome),
    (js "demo_pins_id", isHashColumn row.pinId),
    (js "demo_pins_ip_hash", isHashColumn row.requesterIpHash),
    (js "demo_pins_unpinned_shape", (row.status == .unpinned) == row.unpinnedAt.isSome),
    (js "demo_pins_wallet", isAddressColumn row.wallet)]

/-- The tables, with the identifiers of the network profiles. -/
structure PinTables where
  profileIds : List JsString
  challenges : List PinChallengeRow
  pins : List DemoPinRow

/-! ## Challenges -/

/-- `createChallenge`; the database sets the time of creation. -/
def createChallenge (row : PinChallengeRow) (tables : PinTables) :
    Except PinFault (PinChallengeRow × PinTables) :=
  let row := { row with usedAt := none }
  if row.challengeId ∈ tables.challenges.map PinChallengeRow.challengeId
      ∨ row.profileId ∉ tables.profileIds ∨ (violated row.checks).isSome then .error .database
  else .ok (row, { tables with challenges := tables.challenges ++ [row] })

/-- `getChallenge` -/
def getChallenge (challengeId : JsString) (tables : PinTables) : Option PinChallengeRow :=
  tables.challenges.find? fun row => row.challengeId == challengeId

/-- Whether a pin refers to a challenge. -/
def isReferenced (tables : PinTables) (challengeId : JsString) : Bool :=
  tables.pins.any fun pin => pin.challengeId == challengeId

/-- `deleteExpiredUnreferencedChallenges` -/
def deleteExpiredUnreferencedChallenges (now : ℤ) (limit : ℕ) (tables : PinTables) :
    ℕ × PinTables :=
  let candidates := ((tables.challenges.filter fun row =>
    decide (row.expiresAt ≤ now) && !isReferenced tables row.challengeId).mergeSort
      fun a b => decide (a.expiresAt ≤ b.expiresAt)).take limit
  let isDeleted (row : PinChallengeRow) : Bool :=
    decide (row.challengeId ∈ candidates.map PinChallengeRow.challengeId)
      && !isReferenced tables row.challengeId
  ((tables.challenges.filter isDeleted).length,
    { tables with challenges := tables.challenges.filter fun row => !isDeleted row })

/-! ## Pins -/

/-- The input of `reservePin`. -/
structure ReservePinInput where
  pinId : JsString
  challengeId : JsString
  profileId : JsString
  wallet : JsString
  requesterIpHash : JsString
  cid : JsString
  byteLength : ℕ
  expiresAt : ℤ
  now : ℤ
  dailyLimit : ℕ
  deriving DecidableEq

/-- A day in milliseconds. -/
def dayMs : ℤ := 24 * 60 * 60 * 1000

/-- The row a reservation inserts. -/
def ReservePinInput.row (input : ReservePinInput) : DemoPinRow where
  pinId := input.pinId
  challengeId := input.challengeId
  profileId := input.profileId
  wallet := input.wallet
  requesterIpHash := input.requesterIpHash
  cid := input.cid
  byteLength := input.byteLength
  status := .pending
  failureCode := none
  expiresAt := input.expiresAt
  unpinnedAt := none
  createdAt := input.now
  updatedAt := input.now

/-- `INSERT INTO demo_pins` -/
def insertPin (row : DemoPinRow) (tables : PinTables) : Except PinFault PinTables :=
  if row.pinId ∈ tables.pins.map DemoPinRow.pinId
      ∨ row.challengeId ∈ tables.pins.map DemoPinRow.challengeId
      ∨ row.challengeId ∉ tables.challenges.map PinChallengeRow.challengeId
      ∨ row.profileId ∉ tables.profileIds ∨ (violated row.checks).isSome then .error .database
  else .ok { tables with pins := tables.pins ++ [row] }

/-- `UPDATE pin_challenges SET used_at` of a challenge that is not used. -/
def useChallenge (challengeId : JsString) (now : ℤ) (tables : PinTables) : PinTables :=
  { tables with
    challenges := tables.challenges.map fun row =>
      if row.challengeId = challengeId ∧ row.usedAt = none then { row with usedAt := some now }
      else row }

/-- The rows of a wallet since a time. -/
def walletQuota (wallet : JsString) (since : ℤ) (pins : List DemoPinRow) : ℕ :=
  pins.countP fun pin => pin.wallet == wallet && decide (since ≤ pin.createdAt)

/-- The rows of an address since a time. -/
def ipQuota (requesterIpHash : JsString) (since : ℤ) (pins : List DemoPinRow) : ℕ :=
  pins.countP fun pin => pin.requesterIpHash == requesterIpHash && decide (since ≤ pin.createdAt)

/-- The transaction of `reservePin`. -/
def reservePin (input : ReservePinInput) (tables : PinTables) :
    Except PinFault (DemoPinRow × PinTables) :=
  match getChallenge input.challengeId tables with
  | none => .error (.pinning (js "CHALLENGE_NOT_FOUND") 404)
  | some challenge =>
      if challenge.usedAt.isSome then .error (.pinning (js "CHALLENGE_USED") 409)
      else if challenge.expiresAt ≤ input.now then .error (.pinning (js "CHALLENGE_EXPIRED") 410)
      else if challenge.profileId ≠ input.profileId ∨ challenge.wallet ≠ input.wallet
          ∨ challenge.requesterIpHash ≠ input.requesterIpHash then
        .error (.pinning (js "CHALLENGE_MISMATCH") 403)
      else
        let since := input.now - dayMs
        if input.dailyLimit ≤ walletQuota input.wallet since tables.pins then
          .error (.pinning (js "WALLET_QUOTA_EXCEEDED") 429)
        else if input.dailyLimit ≤ ipQuota input.requesterIpHash since tables.pins then
          .error (.pinning (js "IP_QUOTA_EXCEEDED") 429)
        else
          match insertPin input.row (useChallenge input.challengeId input.now tables) with
          | .error fault => .error fault
          | .ok tables => .ok (input.row, tables)

/-- An update of the rows with an identifier and one of some statuses. -/
def updatePin (pinId : JsString) (statuses : List PinStatus) (update : DemoPinRow → DemoPinRow)
    (tables : PinTables) : PinTables :=
  { tables with
    pins := tables.pins.map fun pin =>
      if pin.pinId = pinId ∧ pin.status ∈ statuses then update pin else pin }

/-- `markPinned` -/
def markPinned (pinId : JsString) (now : ℤ) : PinTables → PinTables :=
  updatePin pinId [.pending] fun pin => { pin with status := .pinned, updatedAt := now }

/-- `markFailed` -/
def markFailed (pinId failureCode : JsString) (now : ℤ) : PinTables → PinTables :=
  updatePin pinId [.pending] fun pin =>
    { pin with status := .failed, failureCode := some failureCode, updatedAt := now }

/-- The statuses of a pin that the cleanup looks at. -/
def activeStatuses : List PinStatus := [.pending, .pinned]

/-- `markUnpinned` -/
def markUnpinned (pinId : JsString) (now : ℤ) : PinTables → PinTables :=
  updatePin pinId activeStatuses fun pin =>
    { pin with status := .unpinned, unpinnedAt := some now, updatedAt := now }

/-- `findExpiredPins` -/
def findExpiredPins (now : ℤ) (limit : ℕ) (tables : PinTables) : List DemoPinRow :=
  ((tables.pins.filter fun pin =>
    decide (pin.status ∈ activeStatuses) && decide (pin.expiresAt ≤ now)).mergeSort
      fun a b => decide (a.expiresAt ≤ b.expiresAt)).take limit

/-- `hasOtherActivePin` -/
def hasOtherActivePin (cid excludingPinId : JsString) (now : ℤ) (tables : PinTables) : Bool :=
  tables.pins.any fun pin => pin.cid == cid && pin.pinId != excludingPinId
    && decide (pin.status ∈ activeStatuses) && decide (now < pin.expiresAt)

/-! ## Calls -/

/-- A call of the repository. -/
inductive RepositoryCall where
  | createChallenge (row : PinChallengeRow)
  | getChallenge (challengeId : JsString)
  | reservePin (input : ReservePinInput)
  | markPinned (pinId : JsString) (now : ℤ)
  | markFailed (pinId failureCode : JsString) (now : ℤ)
  | findExpiredPins (now : ℤ) (limit : ℕ)
  | hasOtherActivePin (cid excludingPinId : JsString) (now : ℤ)
  | markUnpinned (pinId : JsString) (now : ℤ)
  | deleteExpiredUnreferencedChallenges (now : ℤ) (limit : ℕ)

/-- What a call returns. -/
abbrev RepositoryCall.Answer : RepositoryCall → Type
  | createChallenge _ => PinChallengeRow
  | getChallenge _ => Option PinChallengeRow
  | reservePin _ => DemoPinRow
  | markPinned .. => Unit
  | markFailed .. => Unit
  | findExpiredPins .. => List DemoPinRow
  | hasOtherActivePin .. => Bool
  | markUnpinned .. => Unit
  | deleteExpiredUnreferencedChallenges .. => ℕ

/-- A transaction that throws is rolled back. -/
def transact {α : Type} (result : Except PinFault (α × PinTables)) (tables : PinTables) :
    Except PinFault α × PinTables :=
  match result with
  | .ok (a, tables') => (.ok a, tables')
  | .error fault => (.error fault, tables)

/-- What a call does. -/
def RepositoryCall.perform (tables : PinTables) :
    (c : RepositoryCall) → Except PinFault c.Answer × PinTables
  | createChallenge row => transact (Web.createChallenge row tables) tables
  | getChallenge challengeId => (.ok (Web.getChallenge challengeId tables), tables)
  | reservePin input => transact (Web.reservePin input tables) tables
  | markPinned pinId now => (.ok (), Web.markPinned pinId now tables)
  | markFailed pinId failureCode now => (.ok (), Web.markFailed pinId failureCode now tables)
  | findExpiredPins now limit => (.ok (Web.findExpiredPins now limit tables), tables)
  | hasOtherActivePin cid pinId now => (.ok (Web.hasOtherActivePin cid pinId now tables), tables)
  | markUnpinned pinId now => (.ok (), Web.markUnpinned pinId now tables)
  | deleteExpiredUnreferencedChallenges now limit =>
      let result := Web.deleteExpiredUnreferencedChallenges now limit tables
      (.ok result.1, result.2)

/-- A call with its answer. -/
abbrev RepositoryEvent := Σ c : RepositoryCall, Except PinFault c.Answer

/-- The calls one after the other. -/
def RepositoryStep (tables : PinTables) (event : RepositoryEvent) (tables' : PinTables) : Prop :=
  event.1.perform tables = (event.2, tables')

/-- The reservation a call made. -/
def reservationOf : RepositoryEvent → Option ReservePinInput
  | ⟨.reservePin input, .ok _⟩ => some input
  | _ => none

/-- The reservations that were made. -/
def reservations (tr : List RepositoryEvent) : List ReservePinInput :=
  tr.filterMap reservationOf

/-- The challenge a call issued. -/
def challengeOf : RepositoryEvent → Option PinChallengeRow
  | ⟨.createChallenge _, .ok row⟩ => some row
  | _ => none

/-- The challenges that were issued. -/
def issuedChallenges (tr : List RepositoryEvent) : List PinChallengeRow :=
  tr.filterMap challengeOf

/-- What a reservation shares with the row it left. -/
def reservationKey (pin : DemoPinRow) : JsString × JsString × JsString × JsString × ℤ :=
  (pin.challengeId, pin.profileId, pin.wallet, pin.requesterIpHash, pin.createdAt)

/-- A reservation was made with a challenge before it expired, for the profile and by the wallet and
the address it was issued to. -/
def UsesChallenge (input : ReservePinInput) (challenge : PinChallengeRow) : Prop :=
  challenge.challengeId = input.challengeId ∧ challenge.profileId = input.profileId ∧
    challenge.wallet = input.wallet ∧ challenge.requesterIpHash = input.requesterIpHash ∧
      input.now < challenge.expiresAt

/-! ## What a reservation does -/

theorem insertPin_eq_ok {row : DemoPinRow} {tables tables' : PinTables}
    (h : insertPin row tables = .ok tables') :
    row.pinId ∉ tables.pins.map DemoPinRow.pinId ∧
      row.challengeId ∉ tables.pins.map DemoPinRow.challengeId ∧
        tables' = { tables with pins := tables.pins ++ [row] } := by
  unfold insertPin at h
  split_ifs at h with hrefused
  cases h
  simp only [not_or] at hrefused
  exact ⟨hrefused.1, hrefused.2.1, rfl⟩

/-- **When a reservation is made**, and what it leaves. -/
theorem reservePin_eq_ok {input : ReservePinInput} {tables tables' : PinTables} {row : DemoPinRow}
    (h : reservePin input tables = .ok (row, tables')) :
    row = input.row ∧
      (∃ challenge ∈ tables.challenges, challenge.usedAt = none ∧ UsesChallenge input challenge) ∧
      walletQuota input.wallet (input.now - dayMs) tables.pins < input.dailyLimit ∧
      ipQuota input.requesterIpHash (input.now - dayMs) tables.pins < input.dailyLimit ∧
      input.pinId ∉ tables.pins.map DemoPinRow.pinId ∧
      input.challengeId ∉ tables.pins.map DemoPinRow.challengeId ∧
      tables' = { useChallenge input.challengeId input.now tables with
        pins := tables.pins ++ [input.row] } := by
  unfold reservePin at h
  split at h
  · cases h
  · rename_i challenge hchallenge
    dsimp only at h
    split_ifs at h with hused hexpired hmismatch hwallet hip
    simp only [not_or, not_not] at hmismatch
    have hid : challenge.challengeId = input.challengeId := by
      simpa using List.find?_some hchallenge
    split at h
    · cases h
    · rename_i tables'' hinsert
      cases h
      obtain ⟨hpinId, hchallengeId, rfl⟩ := insertPin_eq_ok hinsert
      refine ⟨rfl, ⟨challenge, List.mem_of_find?_eq_some hchallenge, ?_, hid, hmismatch.1,
        hmismatch.2.1, hmismatch.2.2, not_le.mp hexpired⟩, not_le.mp hwallet, not_le.mp hip, hpinId,
        hchallengeId, rfl⟩
      simpa using hused

/-- **A call that is rejected changes no row.** -/
theorem rejected_unchanged {input : ReservePinInput} {tables tables' : PinTables} {fault : PinFault}
    (h : (RepositoryCall.reservePin input).perform tables = (.error fault, tables')) :
    tables' = tables := by
  change transact (reservePin input tables) tables = _ at h
  unfold transact at h
  split at h
  · cases h
  · cases h
    rfl

/-- What a reservation that is made leaves. -/
theorem perform_reservePin_ok {input : ReservePinInput} {tables tables' : PinTables}
    {row : DemoPinRow}
    (h : (RepositoryCall.reservePin input).perform tables = (.ok row, tables')) :
    reservePin input tables = .ok (row, tables') := by
  change transact (reservePin input tables) tables = _ at h
  unfold transact at h
  split at h
  · rename_i result hresult
    cases h
    exact hresult
  · cases h

/-! ## What the other calls do -/

/-- A challenge as it was issued; only the time of its use may differ. -/
def SameChallenge (row row' : PinChallengeRow) : Prop :=
  row = { row' with usedAt := row.usedAt }

theorem reservationKey_updatePin (pinId : JsString) (statuses : List PinStatus)
    {update : DemoPinRow → DemoPinRow}
    (hupdate : ∀ pin, reservationKey (update pin) = reservationKey pin) (tables : PinTables) :
    (updatePin pinId statuses update tables).pins.map reservationKey
      = tables.pins.map reservationKey := by
  show (tables.pins.map _).map reservationKey = _
  rw [List.map_map]
  refine List.map_congr_left fun pin _ => ?_
  rw [Function.comp_apply]
  split_ifs
  · exact hupdate pin
  · rfl

theorem sameChallenge_useChallenge {challengeId : JsString} {now : ℤ} {tables : PinTables}
    {row : PinChallengeRow} (h : row ∈ (useChallenge challengeId now tables).challenges) :
    ∃ row' ∈ tables.challenges, SameChallenge row row' := by
  obtain ⟨row', hrow', rfl⟩ := List.mem_map.mp h
  refine ⟨row', hrow', ?_⟩
  unfold SameChallenge
  split_ifs
  · rfl
  · rfl

/-- **The frame of a step.**  The rows of the pins are those of before and perhaps the one of a
reservation; a challenge was there before or has just been issued. -/
theorem RepositoryStep.frame {tables tables' : PinTables} {event : RepositoryEvent}
    (h : RepositoryStep tables event tables') :
    (reservationOf event = none ∧
        tables'.pins.map reservationKey = tables.pins.map reservationKey ∨
      ∃ input row, event = ⟨.reservePin input, .ok row⟩ ∧
        reservePin input tables = .ok (row, tables')) ∧
    ∀ row ∈ tables'.challenges, (∃ row' ∈ tables.challenges, SameChallenge row row') ∨
      challengeOf event = some row := by
  obtain ⟨c, answer⟩ := event
  change c.perform tables = (answer, tables') at h
  have hold : ∀ row ∈ tables.challenges,
      (∃ row' ∈ tables.challenges, SameChallenge row row') ∨
        challengeOf ⟨c, answer⟩ = some row := fun row hrow => Or.inl ⟨row, hrow, rfl⟩
  cases c with
  | createChallenge row =>
      change transact (createChallenge row tables) tables = _ at h
      cases hcreate : createChallenge row tables with
      | error fault =>
          rw [hcreate] at h
          cases h
          exact ⟨Or.inl ⟨rfl, rfl⟩, hold⟩
      | ok result =>
          rw [hcreate] at h
          cases h
          unfold createChallenge at hcreate
          dsimp only at hcreate
          split_ifs at hcreate
          cases hcreate
          refine ⟨Or.inl ⟨rfl, rfl⟩, fun row' hrow' => ?_⟩
          rcases List.mem_append.mp hrow' with hmem | hnew
          · exact hold row' hmem
          · rw [List.mem_singleton.mp hnew]
            exact Or.inr rfl
  | getChallenge challengeId =>
      cases h
      exact ⟨Or.inl ⟨rfl, rfl⟩, hold⟩
  | reservePin input =>
      cases answer with
      | error fault =>
          rw [rejected_unchanged h]
          exact ⟨Or.inl ⟨rfl, rfl⟩, hold⟩
      | ok row =>
          have hreserve := perform_reservePin_ok h
          refine ⟨Or.inr ⟨input, row, rfl, hreserve⟩, fun row' hrow' => ?_⟩
          obtain ⟨-, -, -, -, -, -, rfl⟩ := reservePin_eq_ok hreserve
          exact Or.inl (sameChallenge_useChallenge hrow')
  | markPinned pinId now =>
      cases h
      refine ⟨Or.inl ⟨rfl, ?_⟩, hold⟩
      apply reservationKey_updatePin
      intro pin
      rfl
  | markFailed pinId failureCode now =>
      cases h
      refine ⟨Or.inl ⟨rfl, ?_⟩, hold⟩
      apply reservationKey_updatePin
      intro pin
      rfl
  | findExpiredPins now limit =>
      cases h
      exact ⟨Or.inl ⟨rfl, rfl⟩, hold⟩
  | hasOtherActivePin cid pinId now =>
      cases h
      exact ⟨Or.inl ⟨rfl, rfl⟩, hold⟩
  | markUnpinned pinId now =>
      cases h
      refine ⟨Or.inl ⟨rfl, ?_⟩, hold⟩
      apply reservationKey_updatePin
      intro pin
      rfl
  | deleteExpiredUnreferencedChallenges now limit =>
      cases h
      refine ⟨Or.inl ⟨rfl, rfl⟩, fun row hrow => hold row ?_⟩
      exact List.mem_of_mem_filter hrow

/-! ## Runs -/

/-- What the tables have to do with the calls that were made. -/
structure ReservationsHold (limit : ℕ) (tr : List RepositoryEvent) (tables : PinTables) : Prop where
  keys : tables.pins.map reservationKey
    = (reservations tr).map fun input => reservationKey input.row
  issued : ∀ row ∈ tables.challenges, ∃ row' ∈ issuedChallenges tr, SameChallenge row row'
  uses : ∀ input ∈ reservations tr, ∃ row ∈ issuedChallenges tr, UsesChallenge input row
  distinct : ((reservations tr).map ReservePinInput.challengeId).Nodup
  wallets : ∀ wallet start, ((reservations tr).countP fun input => input.wallet == wallet
    && decide (start ≤ input.now ∧ input.now ≤ start + dayMs)) ≤ limit
  addresses : ∀ address start, ((reservations tr).countP fun input =>
    input.requesterIpHash == address
      && decide (start ≤ input.now ∧ input.now ≤ start + dayMs)) ≤ limit

theorem UsesChallenge.of_same {input : ReservePinInput} {row row' : PinChallengeRow}
    (h : UsesChallenge input row) (hsame : SameChallenge row row') : UsesChallenge input row' := by
  unfold SameChallenge at hsame
  rw [hsame] at h
  exact h

/-- **The step of a window.**  An element that sees fewer than `limit` elements since a day before
itself makes no window of a day exceed the limit: the window it falls into begins no earlier than a
day before it. -/
theorem countP_window_snoc {ι : Type} {p : ι → Bool} {time : ι → ℤ} {limit : ℕ} {xs : List ι}
    {x : ι}
    (hwindow : ∀ start, (xs.countP fun y => p y
      && decide (start ≤ time y ∧ time y ≤ start + dayMs)) ≤ limit)
    (hseen : p x = true → (xs.countP fun y => p y && decide (time x - dayMs ≤ time y)) < limit)
    (start : ℤ) : ((xs ++ [x]).countP fun y => p y
      && decide (start ≤ time y ∧ time y ≤ start + dayMs)) ≤ limit := by
  rw [List.countP_append, List.countP_singleton]
  by_cases hx : (p x && decide (start ≤ time x ∧ time x ≤ start + dayMs)) = true
  · rw [if_pos hx]
    rw [Bool.and_eq_true, decide_eq_true_eq] at hx
    have hle : (xs.countP fun y => p y && decide (start ≤ time y ∧ time y ≤ start + dayMs))
        ≤ xs.countP fun y => p y && decide (time x - dayMs ≤ time y) := by
      refine List.countP_mono_left fun y _ hy => ?_
      rw [Bool.and_eq_true, decide_eq_true_eq] at hy ⊢
      exact ⟨hy.1, by omega⟩
    have := hseen hx.1
    omega
  · rw [if_neg hx]
    exact hwindow start

theorem walletQuota_eq {wallet : JsString} {since : ℤ} {pins : List DemoPinRow}
    {inputs : List ReservePinInput}
    (h : pins.map reservationKey = inputs.map fun input => reservationKey input.row) :
    walletQuota wallet since pins
      = inputs.countP fun input => input.wallet == wallet && decide (since ≤ input.now) := by
  have hcount := congrArg
    (List.countP fun key => key.2.2.1 == wallet && decide (since ≤ key.2.2.2.2)) h
  rw [List.countP_map, List.countP_map] at hcount
  exact hcount

theorem ipQuota_eq {address : JsString} {since : ℤ} {pins : List DemoPinRow}
    {inputs : List ReservePinInput}
    (h : pins.map reservationKey = inputs.map fun input => reservationKey input.row) :
    ipQuota address since pins
      = inputs.countP fun input => input.requesterIpHash == address
        && decide (since ≤ input.now) := by
  have hcount := congrArg
    (List.countP fun key => key.2.2.2.1 == address && decide (since ≤ key.2.2.2.2)) h
  rw [List.countP_map, List.countP_map] at hcount
  exact hcount

theorem ReservationsHold.snoc {limit : ℕ} {tr : List RepositoryEvent} {tables tables' : PinTables}
    {event : RepositoryEvent} (hold : ReservationsHold limit tr tables)
    (hlimit : ∀ input ∈ reservations (tr ++ [event]), input.dailyLimit ≤ limit)
    (hstep : RepositoryStep tables event tables') :
    ReservationsHold limit (tr ++ [event]) tables' := by
  obtain ⟨hpins, hchallenges⟩ := hstep.frame
  have hissuedMono : ∀ row ∈ issuedChallenges tr, row ∈ issuedChallenges (tr ++ [event]) := by
    intro row hrow
    unfold issuedChallenges
    rw [List.filterMap_append]
    exact List.mem_append_left _ hrow
  have hissued : ∀ row ∈ tables'.challenges,
      ∃ row' ∈ issuedChallenges (tr ++ [event]), SameChallenge row row' := by
    intro row hrow
    rcases hchallenges row hrow with ⟨row', hrow', hsame⟩ | hnew
    · obtain ⟨row'', hrow'', hsame'⟩ := hold.issued row' hrow'
      refine ⟨row'', hissuedMono row'' hrow'', ?_⟩
      unfold SameChallenge at hsame hsame' ⊢
      rw [hsame, hsame']
    · refine ⟨row, ?_, rfl⟩
      unfold issuedChallenges
      rw [List.filterMap_append]
      refine List.mem_append_right _ (List.mem_filterMap.mpr ⟨event, ?_, hnew⟩)
      exact List.mem_singleton_self event
  rcases hpins with ⟨hnone, hkeys⟩ | ⟨input, row, rfl, hreserve⟩
  · have hsame : reservations (tr ++ [event]) = reservations tr := by
      unfold reservations
      rw [List.filterMap_append, List.filterMap_cons_none hnone]
      exact List.append_nil _
    refine ⟨?_, hissued, ?_, ?_, ?_, ?_⟩
    · rw [hkeys, hsame]
      exact hold.keys
    · intro input hinput
      rw [hsame] at hinput
      obtain ⟨row, hrow, huses⟩ := hold.uses input hinput
      exact ⟨row, hissuedMono row hrow, huses⟩
    · rw [hsame]
      exact hold.distinct
    · rw [hsame]
      exact hold.wallets
    · rw [hsame]
      exact hold.addresses
  · have hsnoc : reservations (tr ++ [⟨.reservePin input, .ok row⟩])
        = reservations tr ++ [input] := by
      unfold reservations
      rw [List.filterMap_append]
      rfl
    rw [hsnoc] at hlimit
    have hinputLimit := hlimit input (List.mem_append_right _ (List.mem_singleton_self input))
    obtain ⟨-, ⟨challenge, hchallenge, -, huses⟩, hwallet, hip, -, hfresh, rfl⟩ :=
      reservePin_eq_ok hreserve
    refine ⟨?_, hissued, ?_, ?_, ?_, ?_⟩
    · rw [hsnoc, List.map_append, List.map_append, hold.keys]
      rfl
    · intro input' hinput'
      rw [hsnoc] at hinput'
      rcases List.mem_append.mp hinput' with hmem | hnew
      · obtain ⟨row, hrow, huses⟩ := hold.uses input' hmem
        exact ⟨row, hissuedMono row hrow, huses⟩
      · rw [List.mem_singleton.mp hnew]
        obtain ⟨row', hrow', hsame⟩ := hold.issued challenge hchallenge
        exact ⟨row', hissuedMono row' hrow', huses.of_same hsame⟩
    · have hids : tables.pins.map DemoPinRow.challengeId
          = (reservations tr).map ReservePinInput.challengeId := by
        have hmap := congrArg (List.map Prod.fst) hold.keys
        rw [List.map_map, List.map_map] at hmap
        exact hmap
      rw [hsnoc, List.map_append, List.nodup_append]
      rw [hids] at hfresh
      refine ⟨hold.distinct, List.nodup_singleton _, ?_⟩
      rintro a ha b hb rfl
      rw [List.map_singleton, List.mem_singleton] at hb
      subst hb
      exact hfresh ha
    · intro wallet
      rw [hsnoc]
      refine countP_window_snoc (hold.wallets wallet) fun hx => ?_
      rw [beq_iff_eq] at hx
      subst hx
      rw [walletQuota_eq hold.keys] at hwallet
      exact hwallet.trans_le hinputLimit
    · intro address
      rw [hsnoc]
      refine countP_window_snoc (hold.addresses address) fun hx => ?_
      rw [beq_iff_eq] at hx
      subst hx
      rw [ipQuota_eq hold.keys] at hip
      exact hip.trans_le hinputLimit

/-- The tables before anything was asked for. -/
def PinTables.empty (profileIds : List JsString) : PinTables := ⟨profileIds, [], []⟩

/-- **A challenge is used once, in time and by whom it was issued to, and no window of a day holds
more reservations than the limit**, of a wallet or of an address.  A call that is rejected changes
nothing. -/
theorem reservations_single_use_bounded (profileIds : List JsString) (limit : ℕ) :
    (∀ tr tables, Run RepositoryStep (.empty profileIds) tr tables →
      (∀ input ∈ reservations tr, input.dailyLimit ≤ limit) →
      ((reservations tr).map ReservePinInput.challengeId).Nodup ∧
        (∀ input ∈ reservations tr, ∃ row ∈ issuedChallenges tr, UsesChallenge input row) ∧
        (∀ wallet start, ((reservations tr).countP fun input => input.wallet == wallet
          && decide (start ≤ input.now ∧ input.now ≤ start + dayMs)) ≤ limit) ∧
        ∀ address start, ((reservations tr).countP fun input => input.requesterIpHash == address
          && decide (start ≤ input.now ∧ input.now ≤ start + dayMs)) ≤ limit) ∧
    ∀ input tables fault tables',
      (RepositoryCall.reservePin input).perform tables = (.error fault, tables') →
        tables' = tables := by
  refine ⟨fun tr tables hrun hlimit => ?_, fun _ _ _ _ h => rejected_unchanged h⟩
  have hold : (∀ input ∈ reservations tr, input.dailyLimit ≤ limit) →
      ReservationsHold limit tr tables := by
    refine hrun.induction (P := fun tr tables =>
      (∀ input ∈ reservations tr, input.dailyLimit ≤ limit) → ReservationsHold limit tr tables)
      ?_ ?_
    · intro _
      refine ⟨rfl, fun _ h => absurd h List.not_mem_nil, fun _ h => absurd h List.not_mem_nil,
        List.nodup_nil, fun _ _ => Nat.zero_le _, fun _ _ => Nat.zero_le _⟩
    · intro tr tables event tables' _ ih hstep hlimit
      refine (ih fun input hinput => hlimit input ?_).snoc hlimit hstep
      unfold reservations
      rw [List.filterMap_append]
      exact List.mem_append_left _ hinput
  obtain ⟨-, -, huses, hdistinct, hwallets, haddresses⟩ := hold hlimit
  exact ⟨hdistinct, huses, hwallets, haddresses⟩

/-! ## A challenge and a pin -/

def sampleChallenge : PinChallengeRow where
  challengeId := List.replicate 64 0x61
  profileId := js "testnet"
  wallet := js "rHb9CJAWyB4rj91VRWn96DkukG4bwdtyTh"
  requesterIpHash := List.replicate 64 0x30
  message := []
  expiresAt := 300000
  usedAt := none
  createdAt := 0

def sampleReservation : ReservePinInput where
  pinId := List.replicate 64 0x62
  challengeId := List.replicate 64 0x61
  profileId := js "testnet"
  wallet := js "rHb9CJAWyB4rj91VRWn96DkukG4bwdtyTh"
  requesterIpHash := List.replicate 64 0x30
  cid := js "bafkrei"
  byteLength := 1
  expiresAt := 7776000000
  now := 0
  dailyLimit := 10

theorem run_sampleReservation : Run RepositoryStep (.empty [js "testnet"])
    ([⟨.createChallenge sampleChallenge, .ok sampleChallenge⟩]
      ++ [⟨.reservePin sampleReservation, .ok sampleReservation.row⟩])
    ⟨[js "testnet"], [{ sampleChallenge with usedAt := some 0 }], [sampleReservation.row]⟩ := by
  have hcreate : RepositoryStep (.empty [js "testnet"])
      ⟨.createChallenge sampleChallenge, .ok sampleChallenge⟩
      ⟨[js "testnet"], [sampleChallenge], []⟩ := rfl
  have hreserve : RepositoryStep ⟨[js "testnet"], [sampleChallenge], []⟩
      ⟨.reservePin sampleReservation, .ok sampleReservation.row⟩
      ⟨[js "testnet"], [{ sampleChallenge with usedAt := some 0 }], [sampleReservation.row]⟩ := rfl
  exact (Run.single hcreate).snoc hreserve

/-- The bound at one reservation. -/
theorem reservations_single_use_bounded_sample :
    ∃ row ∈ issuedChallenges [⟨.createChallenge sampleChallenge, .ok sampleChallenge⟩,
      ⟨.reservePin sampleReservation, .ok sampleReservation.row⟩],
      UsesChallenge sampleReservation row :=
  ((reservations_single_use_bounded [js "testnet"] 10).1 _ _ run_sampleReservation
    (List.forall_mem_singleton.mpr le_rfl)).2.1 sampleReservation (List.mem_singleton_self _)

end Web
end Xcs
