import Xcs.Indexer.CredentialMutations
import Xcs.Indexer.QuorumLedgerSource

/-!
# Reading a response

What a ledger server answers may be anything.  The two modules that read it have the same three
readers, under names of their own; each is one of the functions here with the label of the value it
is about.
-/

namespace Xcs
namespace Indexer

open Js

/-- `sourceFailure('SOURCE_RESPONSE_INVALID', message)` -/
def responseInvalid {α : Type} (message : JsString) : Except Thrown α :=
  .error (.source .responseInvalid message)

/-- An object that is no array; what is returned are its members. -/
def readRecord (value : JsValue) (label : JsString) : Except Thrown Members :=
  match value with
  | .obj members => .ok members
  | _ => responseInvalid (label ++ js " must be an object")

/-- A number that is a uint32. -/
def readUint32 (value : JsValue) (label : JsString) : Except Thrown ℕ :=
  match uint32 value with
  | some n => .ok n
  | none => responseInvalid (label ++ js " must be a uint32")

/-- A text of 64 hexadecimal digits, in lowercase. -/
def readHash (value : JsValue) (label : JsString) : Except Thrown JsString :=
  match value with
  | .str s =>
      if isHash s then .ok (toLowerCase s)
      else responseInvalid (label ++ js " must be a 32-byte hexadecimal hash")
  | _ => responseInvalid (label ++ js " must be a 32-byte hexadecimal hash")

/-- The items of a value that `Array.isArray` holds of. -/
def readItems (value : JsValue) (message : JsString) : Except Thrown (List JsValue) :=
  match value with
  | .arr items => .ok items
  | _ => responseInvalid message

theorem responseInvalid_ne_ok {α : Type} {message : JsString} {a : α} :
    responseInvalid message ≠ .ok a := by
  intro h
  cases h

theorem readRecord_eq_ok {value : JsValue} {label : JsString} {members : Members} :
    readRecord value label = .ok members ↔ value = .obj members := by
  cases value <;> simp [readRecord, responseInvalid]

theorem readUint32_eq_ok {value : JsValue} {label : JsString} {n : ℕ} :
    readUint32 value label = .ok n ↔ uint32 value = some n := by
  rw [readUint32]
  cases uint32 value <;> simp [responseInvalid]

theorem readHash_eq_ok {value : JsValue} {label h : JsString} :
    readHash value label = .ok h ↔
      ∃ s, value = .str s ∧ isHash s = true ∧ h = toLowerCase s := by
  cases value with
  | str s =>
      rw [readHash]
      by_cases hs : isHash s = true
      · rw [if_pos hs, Except.ok.injEq]
        constructor
        · rintro rfl
          exact ⟨s, rfl, hs, rfl⟩
        · rintro ⟨t, ht, -, rfl⟩
          rw [JsValue.str.inj ht]
      · rw [if_neg hs]
        constructor
        · exact fun h => absurd h responseInvalid_ne_ok
        · rintro ⟨t, ht, htrue, -⟩
          exact absurd (JsValue.str.inj ht ▸ htrue) hs
  | _ => simp [readHash, responseInvalid]

theorem readItems_eq_ok {value : JsValue} {message : JsString} {items : List JsValue} :
    readItems value message = .ok items ↔ value = .arr items := by
  cases value <;> simp [readItems, responseInvalid]

end Indexer
end Xcs
