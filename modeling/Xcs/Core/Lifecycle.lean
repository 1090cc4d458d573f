import Xcs.Errors

/-!
# The lifecycle of a credential

`projectCredentialLifecycle` says in which state a credential is at the close time of a ledger:
deleted once its ledger object is gone, expired from its expiration on, and until then active or
pending as it was accepted or not.

* `projectCredentialLifecycle_eq_ok`: it answers whenever the times are uint32, and this is what.
-/

namespace Xcs
namespace Core

open Js

/-- `CredentialLifecycleState` -/
inductive CredentialLifecycleState where
  | pending
  | active
  | expired
  | deleted
  deriving DecidableEq

/-- `CredentialLifecycleInput`; an expiration that is `undefined` and one that is `null` are both
`none`. -/
structure CredentialLifecycleInput where
  objectExists : Bool
  accepted : Bool
  expiration : Option JsNumber
  closeTime : JsNumber

/-- `requireRippleTime`, with the time it accepts. -/
def requireRippleTime (value : JsNumber) : Except Thrown ℕ :=
  match value.toUint32? with
  | some time => .ok time
  | none =>
      failXcs .invalidRippleTime (js "Credential lifecycle time must be a uint32") (js "$time") []

@[simp] theorem requireRippleTime_eq_ok {value : JsNumber} {time : ℕ} :
    requireRippleTime value = .ok time ↔ value.toUint32? = some time := by
  unfold requireRippleTime
  cases value.toUint32? <;> simp [failXcs]

/-- The expiration that is checked and compared, when there is one. -/
def requireExpiration : Option JsNumber → Except Thrown (Option ℕ)
  | none => .ok none
  | some value => do
      let time ← requireRippleTime value
      .ok (some time)

/-- Projects the state of a known credential generation at a validated-ledger close time. -/
def projectCredentialLifecycle (input : CredentialLifecycleInput) :
    Except Thrown CredentialLifecycleState := do
  let closeTime ← requireRippleTime input.closeTime
  let expiration ← requireExpiration input.expiration
  if !input.objectExists then .ok .deleted
  else if expiration.any (· ≤ closeTime) then .ok .expired
  else if input.accepted then .ok .active
  else .ok .pending

/-- The state at a close time that is a uint32, of a credential whose expiration is one too. -/
def lifecycleState (objectExists accepted : Bool) (expiration : Option ℕ) (closeTime : ℕ) :
    CredentialLifecycleState :=
  if !objectExists then .deleted
  else if expiration.any (· ≤ closeTime) then .expired
  else if accepted then .active
  else .pending

/-- Where the times are uint32, the lifecycle function answers. -/
theorem projectCredentialLifecycle_eq_ok {input : CredentialLifecycleInput} {closeTime : ℕ}
    {expiration : Option ℕ} (hclose : requireRippleTime input.closeTime = .ok closeTime)
    (hexpiration : requireExpiration input.expiration = .ok expiration) :
    projectCredentialLifecycle input
      = .ok (lifecycleState input.objectExists input.accepted expiration closeTime) := by
  unfold projectCredentialLifecycle lifecycleState
  rw [hclose, hexpiration]
  simp only [bind, Except.bind]
  split_ifs <;> rfl

end Core
end Xcs
