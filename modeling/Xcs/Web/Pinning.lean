import Xcs.Run.Pool
import Xcs.Web.PinningRepository

/-!
# Demo pinning

`pin` reserves a row, writes the content to the store and marks the row; `unpinExpired` is the job
that removes the content of expired rows.  Two rows may have the same content, so the job asks for
another active row before it unpins.  The question, the removal and the update of the row are three
steps, and so are the reservation, the writing and the marking.

* `PinPhase` says how far a call of the service has come, and `PinPhase.exists_next` that its
  program does what the phases say.
* `PinPool.invariant` is the invariant rule for any number of calls at the same time, phase by
  phase.
* `PinPool.exists_run_moves`: a schedule that is permitted is a run.
-/

namespace Xcs
namespace Web

open Js

/-! ## The service -/

/-- A call of the service to the repository, to the content store or to the clock. -/
inductive PinCall where
  | repository (c : RepositoryCall)
  | putRaw (content : List UInt8) (expectedCid : JsString)
  | unpin (cid : JsString)
  | now

/-- What a call returns or throws. -/
abbrev PinCall.Answer : PinCall → Type
  | repository c => Except PinFault c.Answer
  | putRaw .. => Except PinFault Unit
  | unpin _ => Except PinFault Unit
  | now => ℤ

abbrev PinProgram (α : Type) := Program PinCall PinCall.Answer PinFault α

/-- `await this.options.repository…` -/
def callRepository (c : RepositoryCall) : PinProgram c.Answer :=
  .call (.repository c) .done

/-- `await this.options.store.putRaw(content, cid)` -/
def callPutRaw (content : List UInt8) (cid : JsString) : PinProgram Unit :=
  .call (.putRaw content cid) .done

/-- `await this.options.store.unpin(cid)` -/
def callUnpin (cid : JsString) : PinProgram Unit :=
  .call (.unpin cid) .done

/-- `this.now()` -/
def callNow : PinProgram ℤ :=
  .call .now fun now => .done (.ok now)

/-- `PIN_TTL_MS` -/
def pinTtlMs : ℤ := 90 * 24 * 60 * 60 * 1000

/-- `DAILY_LIMIT` -/
def dailyLimit : ℕ := 10

/-- What `pin` has found out before it reserves a row. -/
structure PinRequest where
  pinId : JsString
  challengeId : JsString
  network : JsString
  wallet : JsString
  requesterIpHash : JsString
  content : List UInt8
  cid : JsString

/-- What the service returns. -/
inductive PinAnswer where
  | pinned (uri cid : JsString) (byteLength : ℕ) (expiresAt : ℤ)
  | processed (count : ℕ)

/-- The reservation of a request. -/
def PinRequest.reservation (request : PinRequest) (now : ℤ) : ReservePinInput where
  pinId := request.pinId
  challengeId := request.challengeId
  profileId := request.network
  wallet := request.wallet
  requesterIpHash := request.requesterIpHash
  cid := request.cid
  byteLength := request.content.length
  expiresAt := now + pinTtlMs
  now := now
  dailyLimit := dailyLimit

/-- The `try` of `pin`. -/
def storeContent (request : PinRequest) (pin : DemoPinRow) : PinProgram Unit := do
  callPutRaw request.content request.cid
  let now ← callNow
  callRepository (.markPinned pin.pinId now)

/-- The `catch` of `pin`. -/
def failPin (pin : DemoPinRow) : PinProgram Unit := do
  let now ← callNow
  callRepository (.markFailed pin.pinId (js "KUBO_WRITE_FAILED") now)
  .throwing (.pinning (js "PIN_STORE_UNAVAILABLE") 502)

/-- What `pin` returns. -/
def pinAnswer (request : PinRequest) (pin : DemoPinRow) : PinAnswer :=
  .pinned (js "ipfs://" ++ request.cid) request.cid request.content.length pin.expiresAt

/-- What follows the reservation. -/
def storePin (request : PinRequest) (pin : DemoPinRow) : PinProgram PinAnswer := do
  (storeContent request pin).catchError fun _ => failPin pin
  pure (pinAnswer request pin)

/-- `pin`, from the reservation on: what comes before only reads. -/
def pin (request : PinRequest) : PinProgram PinAnswer := do
  let now ← callNow
  let pin ← callRepository (.reservePin (request.reservation now))
  storePin request pin

/-- The body of the loop of `unpinExpired`. -/
def unpinOne (now : ℤ) (pin : DemoPinRow) : PinProgram Unit := do
  let shared ← callRepository (.hasOtherActivePin pin.cid pin.pinId now)
  if !shared then callUnpin pin.cid else pure ()
  let updatedAt ← callNow
  callRepository (.markUnpinned pin.pinId updatedAt)

/-- The loop of `unpinExpired`. -/
def unpinEach (now : ℤ) : List DemoPinRow → ℕ → PinProgram PinAnswer
  | [], processed => pure (.processed processed)
  | pin :: pins, processed => do
      unpinOne now pin
      unpinEach now pins (processed + 1)

/-- `unpinExpired` -/
def unpinExpired (limit : ℕ) : PinProgram PinAnswer := do
  let now ← callNow
  let _ ← callRepository (.deleteExpiredUnreferencedChallenges now 1000)
  let pins ← callRepository (.findExpiredPins now limit)
  unpinEach now pins 0

/-! ## The world -/

/-- The database, the content store and the clock. -/
structure PinWorld where
  tables : PinTables
  store : List JsString
  clock : ℤ

/-- What a call does where it does not fail. -/
def PinCall.perform (world : PinWorld) : (c : PinCall) → c.Answer × PinWorld
  | repository c =>
      let result := c.perform world.tables
      (result.1, { world with tables := result.2 })
  | putRaw _ cid => (.ok (), { world with store := cid :: world.store })
  | unpin cid => (.ok (), { world with store := world.store.filter fun c => c != cid })
  | now => (world.clock, world)

/-- Whether an answer is an error. -/
def PinCall.isError : (c : PinCall) → c.Answer → Bool
  | repository _, .error _ => true
  | putRaw .., .error _ => true
  | unpin _, .error _ => true
  | _, _ => false

/-- A call does what it does, or it fails.  A call that fails may have had its effect all the same:
the answer can get lost. -/
def PinCall.Performs (c : PinCall) (world : PinWorld) (answer : c.Answer) (world' : PinWorld) :
    Prop :=
  (answer, world') = c.perform world ∨
    c.isError answer = true ∧ (world' = world ∨ world' = (c.perform world).2)

/-- By itself the clock goes on, and challenges are issued. -/
inductive PinWorld.Changes (world : PinWorld) : PinWorld → Prop
  | tick {clock : ℤ} : world.clock ≤ clock → PinWorld.Changes world { world with clock := clock }
  | issue (row : PinChallengeRow) : PinWorld.Changes world
      { world with tables := ((RepositoryCall.createChallenge row).perform world.tables).2 }

abbrev PinPool := Pool PinCall PinCall.Answer PinFault PinAnswer PinWorld

/-- Any number of calls of the service at the same time, with a condition on what their steps lead
to. -/
def pinRules (allows : PinPool → PinWorld → Prop) :
    Pool.Rules PinCall PinCall.Answer PinFault PinAnswer PinWorld where
  starts program := (∃ request, program = pin request) ∨ ∃ limit, program = unpinExpired limit
  performs := PinCall.Performs
  changes := PinWorld.Changes
  allows pool _ world' := allows pool world'

/-- The world before anything was asked for. -/
def PinWorld.initial (profileIds : List JsString) (clock : ℤ) : PinWorld :=
  ⟨.empty profileIds, [], clock⟩

/-! ## What a call does -/

/-- What a call does to the rows and to the content store, whether or not its answer gets lost. -/
inductive PinCall.Effect (world : PinWorld) : PinCall → PinWorld → Prop
  | nothing {c : PinCall} {world' : PinWorld} : world'.tables.pins = world.tables.pins →
      world'.store = world.store → world'.clock = world.clock → Effect world c world'
  | reserved {input : ReservePinInput} {world' : PinWorld} :
      input.pinId ∉ world.tables.pins.map DemoPinRow.pinId →
      world'.tables.pins = world.tables.pins ++ [input.row] → world'.store = world.store →
      world'.clock = world.clock → Effect world (.repository (.reservePin input)) world'
  | marked (pinId : JsString) (now : ℤ) : Effect world (.repository (.markPinned pinId now))
      { world with tables := markPinned pinId now world.tables }
  | failed (pinId failureCode : JsString) (now : ℤ) :
      Effect world (.repository (.markFailed pinId failureCode now))
        { world with tables := markFailed pinId failureCode now world.tables }
  | unpinned (pinId : JsString) (now : ℤ) : Effect world (.repository (.markUnpinned pinId now))
      { world with tables := markUnpinned pinId now world.tables }
  | wrote (content : List UInt8) (cid : JsString) :
      Effect world (.putRaw content cid) { world with store := cid :: world.store }
  | removed (cid : JsString) :
      Effect world (.unpin cid) { world with store := world.store.filter fun c => c != cid }

theorem PinCall.effect_perform (world : PinWorld) (c : PinCall) :
    c.Effect world (c.perform world).2 := by
  cases c with
  | putRaw content cid => exact .wrote content cid
  | unpin cid => exact .removed cid
  | now => exact .nothing rfl rfl rfl
  | repository c =>
      cases c with
      | createChallenge row =>
          refine .nothing ?_ rfl rfl
          show (transact (createChallenge row world.tables) world.tables).2.pins = _
          unfold createChallenge
          dsimp only
          split_ifs
          · rfl
          · rfl
      | getChallenge challengeId => exact .nothing rfl rfl rfl
      | reservePin input =>
          rcases hreserve : reservePin input world.tables with fault | ⟨row, tables⟩
          · refine .nothing ?_ rfl rfl
            show (transact (reservePin input world.tables) world.tables).2.pins = _
            rw [hreserve]
            rfl
          · obtain ⟨-, -, -, -, hfresh, -, rfl⟩ := reservePin_eq_ok hreserve
            refine .reserved hfresh ?_ rfl rfl
            show (transact (reservePin input world.tables) world.tables).2.pins = _
            rw [hreserve]
            rfl
      | markPinned pinId now => exact .marked pinId now
      | markFailed pinId failureCode now => exact .failed pinId failureCode now
      | findExpiredPins now limit => exact .nothing rfl rfl rfl
      | hasOtherActivePin cid pinId now => exact .nothing rfl rfl rfl
      | markUnpinned pinId now => exact .unpinned pinId now
      | deleteExpiredUnreferencedChallenges now limit => exact .nothing rfl rfl rfl

theorem PinCall.Performs.effect {c : PinCall} {world world' : PinWorld} {answer : c.Answer}
    (h : c.Performs world answer world') : c.Effect world world' := by
  rcases h with h | ⟨-, rfl | rfl⟩
  · rw [(Prod.mk.inj h).2]
    exact c.effect_perform world
  · exact .nothing rfl rfl rfl
  · exact c.effect_perform world

/-- A call that does not fail does what it does. -/
theorem PinCall.Performs.of_not_isError {c : PinCall} {world world' : PinWorld} {answer : c.Answer}
    (h : c.Performs world answer world') (hok : c.isError answer = false) :
    (answer, world') = c.perform world := by
  rcases h with h | ⟨herror, -⟩
  · exact h
  · rw [hok] at herror
    cases herror

/-! ## How far a call of the service has come -/

inductive PinPhase where
  | begun (request : PinRequest)
  | reserving (request : PinRequest) (now : ℤ)
  | storing (request : PinRequest) (pin : DemoPinRow)
  | stored (request : PinRequest) (pin : DemoPinRow)
  | marking (request : PinRequest) (pin : DemoPinRow) (now : ℤ)
  | rejected (request : PinRequest) (pin : DemoPinRow)
  | failing (request : PinRequest) (pin : DemoPinRow) (now : ℤ)
  | cleaning (limit : ℕ)
  | deleting (limit : ℕ) (now : ℤ)
  | finding (limit : ℕ) (now : ℤ)
  | looping (now : ℤ) (pins : List DemoPinRow) (processed : ℕ)
  | removing (now : ℤ) (pin : DemoPinRow) (pins : List DemoPinRow) (processed : ℕ)
  | decided (now : ℤ) (pin : DemoPinRow) (pins : List DemoPinRow) (processed : ℕ)
  | updating (now : ℤ) (pin : DemoPinRow) (pins : List DemoPinRow) (processed : ℕ) (updatedAt : ℤ)
  | ended (result : Except PinFault PinAnswer)

/-- What a call of the service has still to do. -/
def PinPhase.program : PinPhase → PinProgram PinAnswer
  | begun request => pin request
  | reserving request now => do
      let pin ← callRepository (.reservePin (request.reservation now))
      storePin request pin
  | storing request pin => storePin request pin
  | stored request pin => do
      Program.catchError
        (do let now ← callNow
            callRepository (.markPinned pin.pinId now)) fun _ => failPin pin
      pure (pinAnswer request pin)
  | marking request pin now => do
      Program.catchError (callRepository (.markPinned pin.pinId now)) fun _ => failPin pin
      pure (pinAnswer request pin)
  | rejected request pin => do
      failPin pin
      pure (pinAnswer request pin)
  | failing request pin now => do
      (do callRepository (.markFailed pin.pinId (js "KUBO_WRITE_FAILED") now)
          Program.throwing (.pinning (js "PIN_STORE_UNAVAILABLE") 502) : PinProgram Unit)
      pure (pinAnswer request pin)
  | cleaning limit => unpinExpired limit
  | deleting limit now => do
      let _ ← callRepository (.deleteExpiredUnreferencedChallenges now 1000)
      let pins ← callRepository (.findExpiredPins now limit)
      unpinEach now pins 0
  | finding limit now => do
      let pins ← callRepository (.findExpiredPins now limit)
      unpinEach now pins 0
  | looping now pins processed => unpinEach now pins processed
  | removing now pin pins processed => do
      (do callUnpin pin.cid
          let updatedAt ← callNow
          callRepository (.markUnpinned pin.pinId updatedAt) : PinProgram Unit)
      unpinEach now pins (processed + 1)
  | decided now pin pins processed => do
      (do let updatedAt ← callNow
          callRepository (.markUnpinned pin.pinId updatedAt) : PinProgram Unit)
      unpinEach now pins (processed + 1)
  | updating now pin pins processed updatedAt => do
      callRepository (.markUnpinned pin.pinId updatedAt)
      unpinEach now pins (processed + 1)
  | ended result => .done result

/-- The call a phase is about to make. -/
def PinPhase.call? : PinPhase → Option PinCall
  | begun _ => some .now
  | reserving request now => some (.repository (.reservePin (request.reservation now)))
  | storing request _ => some (.putRaw request.content request.cid)
  | stored .. => some .now
  | marking _ pin now => some (.repository (.markPinned pin.pinId now))
  | rejected .. => some .now
  | failing _ pin now => some (.repository (.markFailed pin.pinId (js "KUBO_WRITE_FAILED") now))
  | cleaning _ => some .now
  | deleting _ now => some (.repository (.deleteExpiredUnreferencedChallenges now 1000))
  | finding limit now => some (.repository (.findExpiredPins now limit))
  | looping _ [] _ => none
  | looping now (pin :: _) _ => some (.repository (.hasOtherActivePin pin.cid pin.pinId now))
  | removing _ pin _ _ => some (.unpin pin.cid)
  | decided .. => some .now
  | updating _ pin _ _ updatedAt => some (.repository (.markUnpinned pin.pinId updatedAt))
  | ended _ => none

/-- Which phase may come next.  A call that fails ends a call of the service, but for the writing
and the marking, which `pin` catches. -/
inductive PinPhase.Next : PinPhase → (c : PinCall) → c.Answer → PinPhase → Prop
  | begun (request : PinRequest) (now : ℤ) : Next (.begun request) .now now (.reserving request now)
  | reserved (request : PinRequest) (now : ℤ) (pin : DemoPinRow) : Next (.reserving request now)
      (.repository (.reservePin (request.reservation now))) (.ok pin) (.storing request pin)
  | stored (request : PinRequest) (pin : DemoPinRow) : Next (.storing request pin)
      (.putRaw request.content request.cid) (.ok ()) (.stored request pin)
  | notStored (request : PinRequest) (pin : DemoPinRow) (fault : PinFault) :
      Next (.storing request pin) (.putRaw request.content request.cid) (.error fault)
        (.rejected request pin)
  | marking (request : PinRequest) (pin : DemoPinRow) (now : ℤ) :
      Next (.stored request pin) .now now (.marking request pin now)
  | marked (request : PinRequest) (pin : DemoPinRow) (now : ℤ) : Next (.marking request pin now)
      (.repository (.markPinned pin.pinId now)) (.ok ()) (.ended (.ok (pinAnswer request pin)))
  | notMarked (request : PinRequest) (pin : DemoPinRow) (now : ℤ) (fault : PinFault) :
      Next (.marking request pin now) (.repository (.markPinned pin.pinId now)) (.error fault)
        (.rejected request pin)
  | failing (request : PinRequest) (pin : DemoPinRow) (now : ℤ) :
      Next (.rejected request pin) .now now (.failing request pin now)
  | failed (request : PinRequest) (pin : DemoPinRow) (now : ℤ) : Next (.failing request pin now)
      (.repository (.markFailed pin.pinId (js "KUBO_WRITE_FAILED") now)) (.ok ())
        (.ended (.error (.pinning (js "PIN_STORE_UNAVAILABLE") 502)))
  | cleaning (limit : ℕ) (now : ℤ) : Next (.cleaning limit) .now now (.deleting limit now)
  | deleted (limit : ℕ) (now : ℤ) (count : ℕ) : Next (.deleting limit now)
      (.repository (.deleteExpiredUnreferencedChallenges now 1000)) (.ok count) (.finding limit now)
  | found (limit : ℕ) (now : ℤ) (pins : List DemoPinRow) : Next (.finding limit now)
      (.repository (.findExpiredPins now limit)) (.ok pins) (.looping now pins 0)
  | shared (now : ℤ) (pin : DemoPinRow) (pins : List DemoPinRow) (processed : ℕ) :
      Next (.looping now (pin :: pins) processed)
        (.repository (.hasOtherActivePin pin.cid pin.pinId now)) (.ok true)
        (.decided now pin pins processed)
  | notShared (now : ℤ) (pin : DemoPinRow) (pins : List DemoPinRow) (processed : ℕ) :
      Next (.looping now (pin :: pins) processed)
        (.repository (.hasOtherActivePin pin.cid pin.pinId now)) (.ok false)
        (.removing now pin pins processed)
  | removed (now : ℤ) (pin : DemoPinRow) (pins : List DemoPinRow) (processed : ℕ) :
      Next (.removing now pin pins processed) (.unpin pin.cid) (.ok ())
        (.decided now pin pins processed)
  | updating (now : ℤ) (pin : DemoPinRow) (pins : List DemoPinRow) (processed : ℕ)
      (updatedAt : ℤ) : Next (.decided now pin pins processed) .now updatedAt
        (.updating now pin pins processed updatedAt)
  | unpinned (now : ℤ) (pin : DemoPinRow) (pins : List DemoPinRow) (processed : ℕ)
      (updatedAt : ℤ) : Next (.updating now pin pins processed updatedAt)
        (.repository (.markUnpinned pin.pinId updatedAt)) (.ok ())
        (.looping now pins (processed + 1))
  | threw {phase : PinPhase} {c : PinCall} {answer : c.Answer} (fault : PinFault) :
      phase.call? = some c → c.isError answer = true → Next phase c answer (.ended (.error fault))

theorem PinPhase.Next.call?_eq {phase phase' : PinPhase} {c : PinCall} {answer : c.Answer}
    (h : phase.Next c answer phase') : phase.call? = some c := by
  cases h with
  | threw fault hcall => exact hcall
  | _ => rfl

/-- The program of a phase makes the call of its phase, and goes on as the next one. -/
theorem PinPhase.exists_next {phase : PinPhase} {c : PinCall}
    {next : c.Answer → PinProgram PinAnswer} (h : phase.program = .call c next)
    (answer : c.Answer) :
    ∃ phase' : PinPhase, phase.Next c answer phase' ∧ next answer = phase'.program := by
  cases phase with
  | ended result => cases h
  | looping now pins processed =>
      cases pins with
      | nil => cases h
      | cons pin pins =>
          obtain ⟨rfl, hnext⟩ := Program.call.inj h
          rw [← eq_of_heq hnext]
          cases answer with
          | error fault => exact ⟨.ended (.error fault), .threw fault rfl rfl, rfl⟩
          | ok shared =>
              cases shared with
              | true => exact ⟨_, .shared now pin pins processed, rfl⟩
              | false => exact ⟨_, .notShared now pin pins processed, rfl⟩
  | begun request =>
      obtain ⟨rfl, hnext⟩ := Program.call.inj h
      rw [← eq_of_heq hnext]
      exact ⟨_, .begun request answer, rfl⟩
  | reserving request now =>
      obtain ⟨rfl, hnext⟩ := Program.call.inj h
      rw [← eq_of_heq hnext]
      cases answer with
      | error fault => exact ⟨.ended (.error fault), .threw fault rfl rfl, rfl⟩
      | ok pin => exact ⟨_, .reserved request now pin, rfl⟩
  | storing request pin =>
      obtain ⟨rfl, hnext⟩ := Program.call.inj h
      rw [← eq_of_heq hnext]
      cases answer with
      | error fault => exact ⟨_, .notStored request pin fault, rfl⟩
      | ok _ => exact ⟨_, .stored request pin, rfl⟩
  | stored request pin =>
      obtain ⟨rfl, hnext⟩ := Program.call.inj h
      rw [← eq_of_heq hnext]
      exact ⟨_, .marking request pin answer, rfl⟩
  | marking request pin now =>
      obtain ⟨rfl, hnext⟩ := Program.call.inj h
      rw [← eq_of_heq hnext]
      cases answer with
      | error fault => exact ⟨_, .notMarked request pin now fault, rfl⟩
      | ok _ => exact ⟨_, .marked request pin now, rfl⟩
  | rejected request pin =>
      obtain ⟨rfl, hnext⟩ := Program.call.inj h
      rw [← eq_of_heq hnext]
      exact ⟨_, .failing request pin answer, rfl⟩
  | failing request pin now =>
      obtain ⟨rfl, hnext⟩ := Program.call.inj h
      rw [← eq_of_heq hnext]
      cases answer with
      | error fault => exact ⟨.ended (.error fault), .threw fault rfl rfl, rfl⟩
      | ok _ => exact ⟨_, .failed request pin now, rfl⟩
  | cleaning limit =>
      obtain ⟨rfl, hnext⟩ := Program.call.inj h
      rw [← eq_of_heq hnext]
      exact ⟨_, .cleaning limit answer, rfl⟩
  | deleting limit now =>
      obtain ⟨rfl, hnext⟩ := Program.call.inj h
      rw [← eq_of_heq hnext]
      cases answer with
      | error fault => exact ⟨.ended (.error fault), .threw fault rfl rfl, rfl⟩
      | ok count => exact ⟨_, .deleted limit now count, rfl⟩
  | finding limit now =>
      obtain ⟨rfl, hnext⟩ := Program.call.inj h
      rw [← eq_of_heq hnext]
      cases answer with
      | error fault => exact ⟨.ended (.error fault), .threw fault rfl rfl, rfl⟩
      | ok pins => exact ⟨_, .found limit now pins, rfl⟩
  | removing now pin pins processed =>
      obtain ⟨rfl, hnext⟩ := Program.call.inj h
      rw [← eq_of_heq hnext]
      cases answer with
      | error fault => exact ⟨.ended (.error fault), .threw fault rfl rfl, rfl⟩
      | ok _ => exact ⟨_, .removed now pin pins processed, rfl⟩
  | decided now pin pins processed =>
      obtain ⟨rfl, hnext⟩ := Program.call.inj h
      rw [← eq_of_heq hnext]
      exact ⟨_, .updating now pin pins processed answer, rfl⟩
  | updating now pin pins processed updatedAt =>
      obtain ⟨rfl, hnext⟩ := Program.call.inj h
      rw [← eq_of_heq hnext]
      cases answer with
      | error fault => exact ⟨.ended (.error fault), .threw fault rfl rfl, rfl⟩
      | ok _ => exact ⟨_, .unpinned now pin pins processed updatedAt, rfl⟩

/-! ## Runs -/

section Invariant

variable {allows : PinPool → PinWorld → Prop} {I : PinWorld → Prop}
  {A : PinWorld → PinPhase → Prop}

/-- A program is one of a phase whose assertion holds. -/
def InPhase (A : PinWorld → PinPhase → Prop) (world : PinWorld) (program : PinProgram PinAnswer) :
    Prop :=
  ∃ phase : PinPhase, program = phase.program ∧ A world phase

/-- The invariant rule, phase by phase. -/
theorem PinPool.invariant (pins : ∀ world request, A world (.begun request))
    (jobs : ∀ world limit, A world (.cleaning limit))
    (calls : ∀ (pool : PinPool) phase c answer phase' world', Pool.Holds I (InPhase A) pool →
      phase.program ∈ pool.programs → A pool.world phase → PinPhase.Next phase c answer phase' →
      allows pool world' → c.Performs pool.world answer world' →
      I world' ∧ A world' phase' ∧
        ∀ other, other.program ∈ pool.programs → A pool.world other → A world' other)
    (changes : ∀ world world', I world → world.Changes world' →
      I world' ∧ ∀ phase, A world phase → A world' phase)
    {world : PinWorld} {pool : PinPool}
    {tr : List (PoolEvent PinCall PinCall.Answer PinFault PinAnswer)}
    (h : Run (Pool.Step (pinRules allows)) ⟨world, []⟩ tr pool) (start : I world) :
    Pool.Holds I (InPhase A) pool := by
  refine Pool.invariant (A := InPhase A) ?_ ?_ ?_ h
    ⟨start, fun _ hp => absurd hp List.not_mem_nil⟩
  · rintro world program - (⟨request, rfl⟩ | ⟨limit, rfl⟩)
    · exact ⟨.begun request, rfl, pins world request⟩
    · exact ⟨.cleaning limit, rfl, jobs world limit⟩
  · intro pool c next answer world' hpool hmem hallows hperforms
    obtain ⟨phase, hphase, hA⟩ := hpool.programs _ hmem
    obtain ⟨phase', hnext, hprogram⟩ := PinPhase.exists_next hphase.symm answer
    rw [hphase] at hmem
    obtain ⟨hI, hA', hothers⟩ := calls pool phase c answer phase' world' hpool hmem hA hnext hallows
      hperforms
    refine ⟨hI, ⟨phase', hprogram, hA'⟩, fun q hq => ?_⟩
    obtain ⟨other, rfl, hother⟩ := hpool.programs q hq
    exact ⟨other, rfl, hothers other hq hother⟩
  · intro world world' hI hchanges
    obtain ⟨hI', hphases⟩ := changes world world' hI hchanges
    exact ⟨hI', fun q ⟨phase, hq, hA⟩ => ⟨phase, hq, hphases phase hA⟩⟩

end Invariant

/-! ## Schedules -/

/-- What a scheduler may do next: start a call of the service, let one make its next call, let that
call fail without an effect, let time go by, or issue a challenge. -/
inductive PinMove where
  | pin (request : PinRequest)
  | unpinExpired (limit : ℕ)
  | proceed (index : ℕ)
  | fail (index : ℕ)
  | tick (milliseconds : ℕ)
  | issue (row : PinChallengeRow)

/-- An error that a call may be answered with. -/
def PinCall.failure : (c : PinCall) → c.Answer
  | repository _ => .error .database
  | putRaw .. => .error .store
  | unpin _ => .error .store
  | now => 0

/-- The pool after a move. -/
def PinPool.move (pool : PinPool) : PinMove → PinPool
  | .pin request => ⟨pool.world, pool.programs ++ [Web.pin request]⟩
  | .unpinExpired limit => ⟨pool.world, pool.programs ++ [Web.unpinExpired limit]⟩
  | .proceed index =>
      match pool.programs[index]? with
      | some (.call c next) =>
          let result := c.perform pool.world
          ⟨result.2, pool.programs.set index (next result.1)⟩
      | _ => pool
  | .fail index =>
      match pool.programs[index]? with
      | some (.call c next) =>
          if c.isError c.failure then ⟨pool.world, pool.programs.set index (next c.failure)⟩
          else pool
      | _ => pool
  | .tick milliseconds =>
      ⟨{ pool.world with clock := pool.world.clock + milliseconds }, pool.programs⟩
  | .issue row =>
      ⟨{ pool.world with
          tables := ((RepositoryCall.createChallenge row).perform pool.world.tables).2 },
        pool.programs⟩

/-- Each move of a schedule leads to a world that is allowed. -/
def PinPool.Permits (allows : PinPool → PinWorld → Prop) : PinPool → List PinMove → Prop
  | _, [] => True
  | pool, move :: moves =>
      allows pool (pool.move move).world ∧ PinPool.Permits allows (pool.move move) moves

instance PinPool.decidablePermits {allows : PinPool → PinWorld → Prop}
    [∀ pool world', Decidable (allows pool world')] :
    ∀ pool moves, Decidable (PinPool.Permits allows pool moves)
  | _, [] => .isTrue trivial
  | pool, move :: moves =>
      have : Decidable (PinPool.Permits allows (pool.move move) moves) :=
        decidablePermits (pool.move move) moves
      inferInstanceAs (Decidable (_ ∧ _))

theorem PinPool.Permits.mono {allows allows' : PinPool → PinWorld → Prop}
    (sub : ∀ pool world', allows pool world' → allows' pool world') {moves : List PinMove} :
    ∀ {pool : PinPool}, pool.Permits allows moves → pool.Permits allows' moves := by
  induction moves with
  | nil => exact fun _ => trivial
  | cons move moves ih => exact fun h => ⟨sub _ _ h.1, ih h.2⟩

theorem PinPool.permits_true (moves : List PinMove) :
    ∀ pool : PinPool, pool.Permits (fun _ _ => True) moves := by
  induction moves with
  | nil => exact fun _ => trivial
  | cons move moves ih => exact fun pool => ⟨trivial, ih (pool.move move)⟩

theorem PinPool.exists_run_move {allows : PinPool → PinWorld → Prop} (pool : PinPool)
    (move : PinMove) (h : allows pool (pool.move move).world) :
    ∃ tr, Run (Pool.Step (pinRules allows)) pool tr (pool.move move) := by
  obtain ⟨world, programs⟩ := pool
  cases move with
  | pin request => exact ⟨_, .single (.start (Or.inl ⟨request, rfl⟩))⟩
  | unpinExpired limit => exact ⟨_, .single (.start (Or.inr ⟨limit, rfl⟩))⟩
  | proceed index =>
      unfold PinPool.move at h ⊢
      dsimp only at h ⊢
      split at h
      · rename_i c next hindex
        exact ⟨_, .single (.call hindex h (Or.inl rfl))⟩
      · exact ⟨_, .nil _⟩
  | fail index =>
      unfold PinPool.move at h ⊢
      dsimp only at h ⊢
      split at h
      · rename_i c next hindex
        split_ifs at h ⊢ with herror
        · exact ⟨_, .single (.call hindex h (Or.inr ⟨herror, Or.inl rfl⟩))⟩
        · exact ⟨_, .nil _⟩
      · exact ⟨_, .nil _⟩
  | tick milliseconds =>
      refine ⟨_, .single (.environment (.tick ?_))⟩
      exact le_add_of_nonneg_right (Int.natCast_nonneg milliseconds)
  | issue row => exact ⟨_, .single (.environment (.issue row))⟩

/-- **A schedule that is permitted is a run.** -/
theorem PinPool.exists_run_moves {allows : PinPool → PinWorld → Prop} {moves : List PinMove} :
    ∀ {pool : PinPool}, pool.Permits allows moves →
      ∃ tr, Run (Pool.Step (pinRules allows)) pool tr (moves.foldl PinPool.move pool) := by
  induction moves with
  | nil => exact fun _ => ⟨_, .nil _⟩
  | cons move moves ih =>
      intro pool h
      obtain ⟨tr, hrun⟩ := pool.exists_run_move move h.1
      obtain ⟨tr', hrun'⟩ := ih h.2
      exact ⟨_, hrun.append hrun'⟩

end Web
end Xcs
