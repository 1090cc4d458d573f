import Xcs.Core.Json
import Xcs.Json.Bytes

/-!
# Unpaired surrogates

A string of UTF-16 code units is text when each high surrogate in it is followed by a low one and
each low surrogate preceded by a high one.  `assertWellFormed` is meant to find the strings that are
not. It looks one unit ahead, and past the end of the string there is `NaN`, with which every
comparison is false: a high surrogate at the very end goes unnoticed.

* `isWellFormed_iff` says at which positions a string is looked at.
* `wellFormed_check_iff` says of which inputs the checks are exact: all but those that end a string,
  or a string of a value, in an unpaired high surrogate.
-/

namespace Xcs
namespace Js

/-- No surrogate of the string is unpaired, at any position. -/
def NoUnpairedSurrogate (s : JsString) : Prop :=
  (∀ i u, s[i]? = some u → isHighSurrogate u = true →
    ∃ v, s[i + 1]? = some v ∧ isLowSurrogate v = true) ∧
  ∀ i u, s[i]? = some u → isLowSurrogate u = true →
    ∃ j v, i = j + 1 ∧ s[j]? = some v ∧ isHighSurrogate v = true

/-- A unit is no surrogate of both kinds. -/
theorem isLowSurrogate_of_isHighSurrogate {u : CodeUnit} (h : isHighSurrogate u = true) :
    isLowSurrogate u = false := by
  rw [isHighSurrogate_iff] at h
  rw [← Bool.not_eq_true, isLowSurrogate_iff]
  omega

/-- In front of a string without unpaired surrogates there may be any unit that is no surrogate. -/
theorem noUnpairedSurrogate_cons {u : CodeUnit} {s : JsString}
    (hhigh : isHighSurrogate u = false) :
    NoUnpairedSurrogate (u :: s) ↔ isLowSurrogate u = false ∧ NoUnpairedSurrogate s := by
  constructor
  · rintro ⟨hh, hl⟩
    have hlow : isLowSurrogate u = false := by
      by_contra hlow
      obtain ⟨j, v, hj, -⟩ := hl 0 u rfl (Bool.not_eq_false _ ▸ hlow)
      exact absurd hj (by omega)
    refine ⟨hlow, fun i v hv hvh => ?_, fun i v hv hvl => ?_⟩
    · exact hh (i + 1) v hv hvh
    · obtain ⟨j, w, hj, hw, hwh⟩ := hl (i + 1) v hv hvl
      cases j with
      | zero =>
          obtain rfl := Option.some.inj hw
          rw [hhigh] at hwh
          cases hwh
      | succ j => exact ⟨j, w, Nat.succ.inj hj, hw, hwh⟩
  · rintro ⟨hlow, hh, hl⟩
    refine ⟨fun i v hv hvh => ?_, fun i v hv hvl => ?_⟩
    · cases i with
      | zero =>
          obtain rfl := Option.some.inj hv
          rw [hhigh] at hvh
          cases hvh
      | succ i => exact hh i v hv hvh
    · cases i with
      | zero =>
          obtain rfl := Option.some.inj hv
          rw [hlow] at hvl
          cases hvl
      | succ i =>
          obtain ⟨j, w, rfl, hw, hwh⟩ := hl i v hv hvl
          exact ⟨j + 1, w, rfl, hw, hwh⟩

/-- A pair in front of a string does not matter. -/
theorem noUnpairedSurrogate_pair {u v : CodeUnit} {s : JsString}
    (hhigh : isHighSurrogate u = true) (hlow : isLowSurrogate v = true) :
    NoUnpairedSurrogate (u :: v :: s) ↔ NoUnpairedSurrogate s := by
  have hu := isLowSurrogate_of_isHighSurrogate hhigh
  have hv : isHighSurrogate v = false := by
    by_contra hv
    rw [isLowSurrogate_of_isHighSurrogate (Bool.not_eq_false _ ▸ hv)] at hlow
    cases hlow
  constructor
  · rintro ⟨hh, hl⟩
    refine ⟨fun i w hw hwh => hh (i + 2) w hw hwh, fun i w hw hwl => ?_⟩
    obtain ⟨j, x, hj, hx, hxh⟩ := hl (i + 2) w hw hwl
    obtain rfl : j = i + 1 := by omega
    cases i with
    | zero =>
        obtain rfl := Option.some.inj hx
        rw [hv] at hxh
        cases hxh
    | succ i => exact ⟨i, x, rfl, hx, hxh⟩
  · rintro ⟨hh, hl⟩
    refine ⟨fun i w hw hwh => ?_, fun i w hw hwl => ?_⟩
    · rcases i with _ | _ | i
      · exact ⟨v, rfl, hlow⟩
      · obtain rfl := Option.some.inj hw
        rw [hv] at hwh
        cases hwh
      · exact hh i w hw hwh
    · rcases i with _ | _ | i
      · obtain rfl := Option.some.inj hw
        rw [hu] at hwl
        cases hwl
      · exact ⟨0, u, rfl, rfl, hhigh⟩
      · obtain ⟨j, x, rfl, hx, hxh⟩ := hl i w hw hwl
        exact ⟨j + 2, x, rfl, hx, hxh⟩

/-- **The well-formed strings** are those without an unpaired surrogate at any position. -/
theorem isWellFormed_iff {s : JsString} : isWellFormed s = true ↔ NoUnpairedSurrogate s := by
  fun_induction isWellFormed s with
  | case1 => simp [NoUnpairedSurrogate]
  | case2 u =>
      cases hu : isHighSurrogate u with
      | false =>
          rw [noUnpairedSurrogate_cons hu]
          simp [NoUnpairedSurrogate]
      | true =>
          refine ⟨fun h => by simp at h, fun h => ?_⟩
          obtain ⟨v, hv, -⟩ := h.1 0 u rfl hu
          cases hv
  | case3 u v rest hu ih =>
      rw [Bool.and_eq_true, ih]
      constructor
      · rintro ⟨hv, hrest⟩
        exact (noUnpairedSurrogate_pair hu hv).mpr hrest
      · intro h
        obtain ⟨w, hw, hlow⟩ := h.1 0 u rfl hu
        obtain rfl := Option.some.inj hw
        exact ⟨hlow, (noUnpairedSurrogate_pair hu hlow).mp h⟩
  | case4 u v rest hu ih =>
      rw [Bool.and_eq_true, ih, Bool.not_eq_true']
      exact (noUnpairedSurrogate_cons (Bool.eq_false_iff.mpr hu)).symm

end Js

namespace Core

open Js Json

/-- The string is text up to its last unit, an unpaired high surrogate. -/
def endsUnpaired (s : JsString) : Bool :=
  match s.getLast? with
  | some u => isHighSurrogate u && isWellFormed s.dropLast
  | none => false

theorem endsUnpaired_iff {s : JsString} : endsUnpaired s = true ↔
    ∃ t u, s = t ++ [u] ∧ isWellFormed t = true ∧ isHighSurrogate u = true := by
  rcases s.eq_nil_or_concat' with rfl | ⟨t, u, rfl⟩
  · simp [endsUnpaired]
  · rw [endsUnpaired, List.getLast?_concat, List.dropLast_concat, Bool.and_eq_true]
    constructor
    · rintro ⟨hu, ht⟩
      exact ⟨t, u, rfl, ht, hu⟩
    · rintro ⟨t', u', heq, ht, hu⟩
      obtain ⟨rfl, hlast⟩ := List.append_inj' heq rfl
      obtain rfl := (List.cons.inj hlast).1
      exact ⟨hu, ht⟩

/-- A string that ends in an unpaired surrogate is not well formed. -/
theorem isWellFormed_of_endsUnpaired {s : JsString} (h : endsUnpaired s = true) :
    isWellFormed s = false := by
  obtain ⟨t, u, rfl, -, hu⟩ := endsUnpaired_iff.mp h
  rw [← Bool.not_eq_true, isWellFormed_iff]
  rintro ⟨hh, -⟩
  obtain ⟨v, hv, -⟩ := hh t.length u (by simp) hu
  simp at hv

/-- The strings `assertWellFormed` accepts. -/
theorem isAccepted_eq (s : JsString) : isAccepted s = (isWellFormed s || endsUnpaired s) := by
  rw [Bool.eq_iff_iff, isAccepted_iff, Bool.or_eq_true, endsUnpaired_iff]

/-- The value is one that JSON can hold, no string of it is refused, and one of them ends in an
unpaired surrogate. -/
def hasUnpairedEnd (v : JsValue) : Bool :=
  v.isJson && v.allStrings (fun s => isWellFormed s || endsUnpaired s)
    && !v.allStrings fun s => !endsUnpaired s

/-- Two tests hold of every string when their conjunction does. -/
theorem allStrings_and {p q : JsString → Bool} {v : JsValue} (hp : v.allStrings p = true)
    (hq : v.allStrings q = true) : v.allStrings (fun s => p s && q s) = true := by
  induction v using JsValue.induct with
  | str s =>
      rw [JsValue.allStrings_str] at *
      rw [hp, hq]
      rfl
  | arr items ih =>
      rw [JsValue.allStrings_arr, List.all_eq_true] at *
      exact fun v hv => ih v hv (hp v hv) (hq v hv)
  | obj members ih =>
      rw [JsValue.allStrings_obj, List.all_eq_true] at *
      intro m hm
      have hpm := hp m hm
      have hqm := hq m hm
      rw [Bool.and_eq_true] at hpm hqm
      rw [hpm.1, hqm.1, ih m hm hpm.2 hqm.2]
      rfl
  | _ => exact hp

/-- What is accepted is well formed unless a string ends in an unpaired surrogate. -/
theorem hasUnpairedEnd_eq_false {v : JsValue} :
    hasUnpairedEnd v = false ↔
      (v.isJson = true → v.allStrings isAccepted = true → v.allStrings isWellFormed = true) := by
  have hsame : isAccepted = fun s => isWellFormed s || endsUnpaired s := funext isAccepted_eq
  rw [hasUnpairedEnd, hsame, Bool.and_eq_false_iff, Bool.and_eq_false_iff, Bool.not_eq_false']
  constructor
  · rintro ((hjson | hrefused) | hends) hv haccepted
    · rw [hjson] at hv
      cases hv
    · rw [hrefused] at haccepted
      cases haccepted
    · refine JsValue.allStrings_imp (fun s hs => ?_) (allStrings_and haccepted hends)
      rw [Bool.and_eq_true, Bool.or_eq_true, Bool.not_eq_true'] at hs
      rcases hs with ⟨hwell | hend, hnot⟩
      · exact hwell
      · rw [hend] at hnot
        cases hnot
  · intro h
    by_cases hjson : v.isJson = true
    · by_cases haccepted : v.allStrings (fun s => isWellFormed s || endsUnpaired s) = true
      · refine Or.inr (JsValue.allStrings_imp (fun s hs => ?_) (h hjson haccepted))
        rw [Bool.not_eq_true', ← Bool.not_eq_true]
        intro hend
        rw [isWellFormed_of_endsUnpaired hend] at hs
        cases hs
      · exact Or.inl (Or.inr (Bool.eq_false_iff.mpr haccepted))
    · exact Or.inl (Or.inl (Bool.eq_false_iff.mpr hjson))

/-- A test that accepts the strings of `assertWellFormed` is exact on the strings that do not end in
an unpaired surrogate. -/
theorem exact_iff_endsUnpaired {s : JsString} {accepts : Prop}
    (h : accepts ↔ isAccepted s = true) :
    (accepts ↔ NoUnpairedSurrogate s) ↔ endsUnpaired s = false := by
  rw [h, isAccepted_eq, ← isWellFormed_iff, Bool.or_eq_true]
  constructor
  · intro hexact
    rw [← Bool.not_eq_true]
    intro hend
    have hwell := hexact.mp (Or.inr hend)
    rw [isWellFormed_of_endsUnpaired hend] at hwell
    cases hwell
  · intro hend
    rw [hend]
    simp

theorem utf8ByteLength_eq_ok {s : JsString} :
    (∃ n, utf8ByteLength s = .ok n) ↔ isAccepted s = true := by
  simp only [utf8ByteLength, bind_eq_ok, assertWellFormed_eq_ok, exists_const, pure_eq_ok]
  constructor
  · rintro ⟨_, h, _⟩
    exact h
  · exact fun h => ⟨_, h, rfl⟩

/-- **When the checks are exact.**  `assertWellFormed` and `utf8ByteLength` accept exactly the
strings without unpaired surrogates, at the strings that do not end in one.  What `assertJsonValue`
accepts has no unpaired surrogate in any string or key, where no string or key ends in one; and what
`canonicalJson` writes neither, where moreover the serialiser is one that escapes lone surrogates.
The canonical text itself always survives the encoding in UTF-8. -/
theorem wellFormed_check_iff (P : Platform) :
    (∀ s path, ((assertWellFormed s path = .ok () ↔ NoUnpairedSurrogate s) ↔
      endsUnpaired s = false)) ∧
    (∀ s, (((∃ n, utf8ByteLength s = .ok n) ↔ NoUnpairedSurrogate s) ↔
      endsUnpaired s = false)) ∧
    (∀ v, (assertJsonValue v = .ok () → v.allStrings isWellFormed = true) ↔
      hasUnpairedEnd v = false) ∧
    ∀ v, (∀ text, canonicalJson P v = .ok text →
        v.allStrings isWellFormed = true ∧ decodeUtf8 (encodeUtf8 text) = some text) ↔
      (P.escapesLoneSurrogates && hasUnpairedEnd v) = false := by
  refine ⟨fun s path => exact_iff_endsUnpaired assertWellFormed_eq_ok,
    fun s => exact_iff_endsUnpaired utf8ByteLength_eq_ok, fun v => ?_, fun v => ?_⟩
  · rw [hasUnpairedEnd_eq_false, assertJsonValue_eq_ok, and_imp]
  · rw [Bool.and_eq_false_iff, hasUnpairedEnd_eq_false]
    simp only [canonicalJson_eq_ok, and_imp, isWritable, Bool.and_eq_true, Bool.or_eq_true]
    constructor
    · intro h
      by_cases hescapes : P.escapesLoneSurrogates = true
      · exact Or.inr fun hjson haccepted =>
          (h _ hjson haccepted (Or.inl hescapes) rfl).1
      · exact Or.inl (Bool.eq_false_iff.mpr hescapes)
    · rintro h text hjson haccepted hwritten rfl
      refine ⟨?_, decodeUtf8_canonicalText v⟩
      rcases hwritten with hescapes | hwell
      · rcases h with hnot | h
        · rw [hescapes] at hnot
          cases hnot
        · exact h hjson haccepted
      · exact hwell

/-- A high surrogate alone is accepted. -/
theorem assertWellFormed_accepts_unpaired :
    ¬ ∀ s path, (assertWellFormed s path = .ok () ↔ NoUnpairedSurrogate s) := by
  intro h
  have hunpaired := (h [0xd800] (js "$")).mp rfl
  rw [← isWellFormed_iff] at hunpaired
  cases hunpaired

end Core
end Xcs
