import Xcs.Core.Json

/-!
# Equal values

Two values are equal when `isDeepStrictEqual` says so: the order of the members of an object does
not matter, and the two zeros differ.  Canonical JSON orders the members and writes both zeros as
`0`, so what is read back from the canonical text of a value is equal to the value when the value
has no negative zero.

`parseJson_canonicalText_equal` is that fact.
-/

namespace Xcs
namespace Js
namespace JsValue

/-- No number in the value is negative zero. -/
def noNegZero (v : JsValue) : Bool :=
  v.every fun w =>
    match w with
    | .num n => n != .negZero
    | _ => true

@[simp] theorem noNegZero_num (n : JsNumber) : (num n).noNegZero = (n != .negZero) := rfl

@[simp] theorem noNegZero_arr (items : List JsValue) :
    (arr items).noNegZero = items.all noNegZero := by
  rw [noNegZero, every_arr, Bool.true_and]
  rfl

@[simp] theorem noNegZero_obj (members : Members) :
    (obj members).noNegZero = members.all fun m => m.2.noNegZero := by
  rw [noNegZero, every_obj, Bool.true_and]
  rfl

/-- The canonical form has no negative zero. -/
theorem noNegZero_canon (v : JsValue) : v.canon.noNegZero = true := by
  induction v using induct with
  | num n => cases n <;> rfl
  | arr items ih =>
      rw [canon_arr, noNegZero_arr, List.all_map, List.all_eq_true]
      exact ih
  | obj members ih =>
      rw [canon_obj, noNegZero_obj, List.all_eq_true]
      intro m hm
      rw [mem_sortMembers, List.mem_map] at hm
      obtain ⟨n, hn, rfl⟩ := hm
      exact ih n hn
  | _ => rfl

/-- Building the objects of a value adds no negative zero. -/
theorem noNegZero_materialize {v : JsValue} (hkeys : v.distinctKeys = true)
    (h : v.noNegZero = true) : (Json.materialize v).noNegZero = true := by
  induction v using induct with
  | arr items ih =>
      rw [distinctKeys_arr, List.all_eq_true] at hkeys
      rw [noNegZero_arr, List.all_eq_true] at h
      rw [Json.materialize_arr, noNegZero_arr, List.all_map, List.all_eq_true]
      intro v hv
      exact ih v hv (hkeys v hv) (h v hv)
  | obj members ih =>
      rw [distinctKeys_obj, Bool.and_eq_true, decide_eq_true_eq, List.all_eq_true] at hkeys
      rw [noNegZero_obj, List.all_eq_true] at h
      have hmapped : ((members.map fun m => (m.1, Json.materialize m.2)).map (·.1)).Nodup := by
        rw [List.map_map]
        exact hkeys.1
      rw [Json.materialize_obj, noNegZero_obj, List.all_eq_true]
      intro m hm
      rw [(Json.objectMembers_perm hmapped).mem_iff, List.mem_map] at hm
      obtain ⟨n, hn, rfl⟩ := hm
      exact ih n hn (hkeys.2 n hn) (h n hn)
  | _ => exact h

/-! ## Deep equality -/

theorem deepEqualMembers_iff {ns : Members} : ∀ {ms : Members},
    deepEqualMembers ms ns = true ↔
      ∀ m ∈ ms, ∃ w, ns.lookup m.1 = some w ∧ isDeepStrictEqual m.2 w = true
  | [] => by simp [deepEqualMembers]
  | (key, v) :: ms => by
      rw [deepEqualMembers, Bool.and_eq_true, deepEqualMembers_iff, List.forall_mem_cons]
      cases ns.lookup key with
      | none => simp
      | some w => simp

theorem deepEqualItems_iff : ∀ {xs ys : List JsValue},
    deepEqualItems xs ys = true ↔ List.Forall₂ (fun x y => isDeepStrictEqual x y = true) xs ys
  | [], [] => by simp [deepEqualItems]
  | [], y :: ys => by simp [deepEqualItems]
  | x :: xs, [] => by simp [deepEqualItems]
  | x :: xs, y :: ys => by
      rw [deepEqualItems, Bool.and_eq_true, deepEqualItems_iff, List.forall₂_cons]

/-- Values without negative zeros that have the same canonical form are equal. -/
theorem isDeepStrictEqual_of_canon_eq {v w : JsValue} (hkeys : v.distinctKeys = true)
    (hv : v.noNegZero = true) (hw : w.noNegZero = true) (h : v.canon = w.canon) :
    v.isDeepStrictEqual w = true := by
  induction v using induct generalizing w with
  | num n =>
      cases w with
      | num m =>
          rw [noNegZero_num, bne_iff_ne] at hv hw
          rw [canon_num, canon_num, num.injEq] at h
          have hcanon : ∀ k : JsNumber, k ≠ .negZero → k.canon = k := by
            intro k hk
            cases k with
            | negZero => exact absurd rfl hk
            | _ => rfl
          rw [hcanon n hv, hcanon m hw] at h
          rw [isDeepStrictEqual, h, beq_self_eq_true]
      | _ => simp at h
  | arr xs ih =>
      cases w with
      | arr ys =>
          rw [canon_arr, canon_arr, arr.injEq] at h
          rw [distinctKeys_arr, List.all_eq_true] at hkeys
          rw [noNegZero_arr, List.all_eq_true] at hv hw
          rw [isDeepStrictEqual, deepEqualItems_iff, List.forall₂_iff_get]
          have hlength : xs.length = ys.length := by
            simpa using congrArg List.length h
          refine ⟨hlength, fun i hi hi' => ?_⟩
          have hx : xs.get ⟨i, hi⟩ ∈ xs := List.get_mem ..
          have hy : ys.get ⟨i, hi'⟩ ∈ ys := List.get_mem ..
          refine ih _ hx (hkeys _ hx) (hv _ hx) (hw _ hy) ?_
          have hmapped : (xs.map canon)[i]? = (ys.map canon)[i]? := by rw [h]
          rwa [List.getElem?_map, List.getElem?_map, List.getElem?_eq_getElem hi,
            List.getElem?_eq_getElem hi', Option.map_some, Option.map_some,
            Option.some.injEq] at hmapped
      | _ => simp at h
  | obj ms ih =>
      cases w with
      | obj ns =>
          rw [canon_obj, canon_obj, obj.injEq] at h
          rw [distinctKeys_obj, Bool.and_eq_true, decide_eq_true_eq, List.all_eq_true] at hkeys
          rw [noNegZero_obj, List.all_eq_true] at hv hw
          rw [isDeepStrictEqual, Bool.and_eq_true, beq_iff_eq, deepEqualMembers_iff]
          constructor
          · have hlength := congrArg List.length h
            rwa [(sortMembers_perm _).length_eq, (sortMembers_perm _).length_eq, List.length_map,
              List.length_map] at hlength
          · intro m hm
            have hlookup := congrArg (·.lookup m.1) h
            simp only [lookup_canonMembers] at hlookup
            rw [(lookup_eq_some_iff_mem hkeys.1).mpr (show (m.1, m.2) ∈ ms from hm),
              Option.map_some, eq_comm, Option.map_eq_some_iff] at hlookup
            obtain ⟨w, hfound, hcanon⟩ := hlookup
            obtain ⟨before, after, rfl, -⟩ := List.lookup_eq_some_iff.mp hfound
            refine ⟨w, hfound, ih m hm (hkeys.2 m hm) (hv m hm) (hw (m.1, w) ?_) hcanon.symm⟩
            exact List.mem_append_right _ List.mem_cons_self
      | _ => simp at h
  | undefined => cases w with
      | undefined => rfl
      | _ => simp at h
  | null => cases w with
      | null => rfl
      | _ => simp at h
  | bool b => cases w with
      | bool c =>
          rw [canon_bool, canon_bool, bool.injEq] at h
          rw [isDeepStrictEqual, h, beq_self_eq_true]
      | _ => simp at h
  | str s => cases w with
      | str t =>
          rw [canon_str, canon_str, str.injEq] at h
          rw [isDeepStrictEqual, h, beq_self_eq_true]
      | _ => simp at h

end JsValue
end Js

namespace Core

open Js Json

/-- **Reading canonical JSON.**  What is read back from the canonical text of a value without
negative zeros is equal to the value. -/
theorem parseJson_canonicalText_equal {v : JsValue} (hjson : v.isJson = true)
    (hkeys : v.distinctKeys = true) (hstrings : v.allStrings isAccepted = true)
    (hzeros : v.noNegZero = true) :
    ∃ w, parseJson (canonicalText v) = .ok w ∧ w.canon = v.canon ∧ w.noNegZero = true ∧
      w.isDeepStrictEqual v = true := by
  obtain ⟨w, hparse, hcanon⟩ := parseJson_canonicalText hjson hkeys hstrings
  have hwzeros : w.noNegZero = true := by
    obtain ⟨root, hroot, -, rfl, -⟩ := parseJson_eq_ok.mp hparse
    rw [canonicalText, parseText_render (isRenderable_canon hjson), Option.some.injEq] at hroot
    subst hroot
    exact JsValue.noNegZero_materialize (by rwa [JsValue.distinctKeys_canon])
      v.noNegZero_canon
  exact ⟨w, hparse, hcanon, hwzeros, JsValue.isDeepStrictEqual_of_canon_eq
    (parseJson_distinctKeys hparse).2.1 hwzeros hzeros hcanon⟩

end Core
end Xcs
