import Xcs.Js.Utf8
import Xcs.Json.RoundTrip

/-!
# Canonical JSON as bytes

What is hashed and sent is the canonical text in UTF-8.  The text is a well-formed string whatever
the value is, since a lone surrogate is written as an escape, so nothing is lost on the way to bytes
and back.
-/

namespace Xcs
namespace Json

open Js

/-- Units that are no surrogates do not change whether the rest is well formed. -/
theorem isWellFormed_append_of_plain {s : JsString}
    (h : ∀ u ∈ s, isHighSurrogate u = false ∧ isLowSurrogate u = false) (r : JsString) :
    isWellFormed (s ++ r) = isWellFormed r := by
  induction s with
  | nil => rfl
  | cons u s ih =>
      obtain ⟨hhigh, hlow⟩ := h u List.mem_cons_self
      show isWellFormed (u :: (s ++ r)) = _
      rw [isWellFormed_cons_of_not_high hhigh, hlow,
        ih fun v hv => h v (List.mem_cons_of_mem u hv)]
      rfl

theorem not_surrogate_of_lt {u : CodeUnit} (h : u.toNat < 0xd800) :
    isHighSurrogate u = false ∧ isLowSurrogate u = false := by
  rw [← Bool.not_eq_true, ← Bool.not_eq_true, isHighSurrogate_iff, isLowSurrogate_iff]
  omega

/-- The units of a fixed text, tested one by one. -/
theorem lt_of_all {s : JsString} (h : (s.all fun u => decide (u.toNat < 0xd800)) = true)
    {u : CodeUnit} (hu : u ∈ s) : u.toNat < 0xd800 :=
  of_decide_eq_true (List.all_eq_true.mp h u hu)

theorem isWellFormed_append_of_all {s : JsString}
    (h : (s.all fun u => decide (u.toNat < 0xd800)) = true) (r : JsString) :
    isWellFormed (s ++ r) = isWellFormed r :=
  isWellFormed_append_of_plain (fun _ hu => not_surrogate_of_lt (lt_of_all h hu)) r

/-! ## Strings -/

theorem hexDigit_lt {n : ℕ} (h : n < 16) : (hexDigit n).toNat < 0xd800 := by
  unfold hexDigit
  split_ifs
  · rw [toNat_toUInt16 (by omega)]
    omega
  · rw [toNat_toUInt16 (by omega)]
    omega

theorem isWellFormed_hexEscape (u : CodeUnit) (r : JsString) :
    isWellFormed (hexEscape u ++ r) = isWellFormed r := by
  have hu := u.toNat_lt
  refine isWellFormed_append_of_plain (fun v hv => not_surrogate_of_lt ?_) r
  unfold hexEscape at hv
  simp only [List.mem_cons, List.not_mem_nil, or_false] at hv
  rcases hv with rfl | rfl | rfl | rfl | rfl | rfl
  · decide
  · decide
  · exact hexDigit_lt (by omega)
  · exact hexDigit_lt (by omega)
  · exact hexDigit_lt (by omega)
  · exact hexDigit_lt (by omega)

theorem isWellFormed_escapeUnit {u : CodeUnit} (hhigh : isHighSurrogate u = false)
    (hlow : isLowSurrogate u = false) (r : JsString) :
    isWellFormed (escapeUnit u ++ r) = isWellFormed r := by
  unfold escapeUnit
  split_ifs
  · exact isWellFormed_append_of_all (by decide) r
  · exact isWellFormed_append_of_all (by decide) r
  · exact isWellFormed_append_of_all (by decide) r
  · exact isWellFormed_append_of_all (by decide) r
  · exact isWellFormed_append_of_all (by decide) r
  · exact isWellFormed_append_of_all (by decide) r
  · exact isWellFormed_append_of_all (by decide) r
  · exact isWellFormed_hexEscape u r
  · exact isWellFormed_append_of_plain (fun v hv => by
      rw [List.mem_singleton.mp hv]
      exact ⟨hhigh, hlow⟩) r

theorem isWellFormed_escapeUnits (s r : JsString) :
    isWellFormed (escapeUnits s ++ r) = isWellFormed r := by
  fun_induction escapeUnits s with
  | case1 => rfl
  | case2 u hu => exact isWellFormed_hexEscape u r
  | case3 u hu =>
      rw [Bool.or_eq_true, not_or, Bool.not_eq_true, Bool.not_eq_true] at hu
      exact isWellFormed_escapeUnit hu.1 hu.2 r
  | case4 u v rest hu hv ih =>
      show isWellFormed (u :: v :: (escapeUnits rest ++ r)) = _
      rw [isWellFormed, if_pos hu, hv, ih]
      rfl
  | case5 u v rest hu hv ih => rw [List.append_assoc, isWellFormed_hexEscape, ih]
  | case6 u v rest hu hv ih => rw [List.append_assoc, isWellFormed_hexEscape, ih]
  | case7 u v rest hu hv ih =>
      rw [List.append_assoc, isWellFormed_escapeUnit ((Bool.not_eq_true _).mp hu)
        ((Bool.not_eq_true _).mp hv), ih]

theorem isWellFormed_quote (s r : JsString) : isWellFormed (quote s ++ r) = isWellFormed r := by
  have hquote : isHighSurrogate 0x22 = false ∧ isLowSurrogate 0x22 = false := by decide
  unfold quote
  show isWellFormed (0x22 :: (escapeUnits s ++ [0x22] ++ r)) = _
  rw [isWellFormed_cons_of_not_high hquote.1, hquote.2, List.append_assoc,
    isWellFormed_escapeUnits]
  show (true && isWellFormed (0x22 :: r)) = _
  rw [isWellFormed_cons_of_not_high hquote.1, hquote.2]
  rfl

/-! ## Numbers -/

theorem digitUnits_lt {ds : List ℕ} (h : ∀ d ∈ ds, d < 10) {u : CodeUnit}
    (hu : u ∈ digitUnits ds) : u.toNat < 0xd800 := by
  obtain ⟨d, hd, rfl⟩ := List.mem_map.mp hu
  have hlt := h d hd
  rw [toNat_toUInt16 (by omega)]
  omega

theorem natToString_lt {n : ℕ} {u : CodeUnit} (hu : u ∈ natToString n) : u.toNat < 0xd800 :=
  digitUnits_lt (fun _ hd => lt_ten_of_mem_natDigits hd) hu

theorem layout_lt {ds : List ℕ} (h : ∀ d ∈ ds, d < 10) (n : ℤ) {u : CodeUnit}
    (hu : u ∈ layout ds n) : u.toNat < 0xd800 := by
  have htake : ∀ k, ∀ d ∈ ds.take k, d < 10 := fun k d hd => h d (List.mem_of_mem_take hd)
  have hdrop : ∀ k, ∀ d ∈ ds.drop k, d < 10 := fun k d hd => h d (List.mem_of_mem_drop hd)
  have hexponent : ∀ sign : CodeUnit, sign.toNat < 0xd800 →
      ∀ v ∈ (0x65 : CodeUnit) :: sign :: natToString (n - 1).natAbs, v.toNat < 0xd800 := by
    intro sign hsign v hv
    rcases List.mem_cons.mp hv with rfl | hv
    · decide
    · rcases List.mem_cons.mp hv with rfl | hv
      · exact hsign
      · exact natToString_lt hv
  unfold layout at hu
  dsimp only at hu
  split_ifs at hu
  · rcases List.mem_append.mp hu with hu | hu
    · exact digitUnits_lt h hu
    · rw [List.eq_of_mem_replicate hu]
      decide
  · rcases List.mem_append.mp hu with hu | hu
    · exact digitUnits_lt (htake _) hu
    · rcases List.mem_cons.mp hu with rfl | hu
      · decide
      · exact digitUnits_lt (hdrop _) hu
  · rcases List.mem_cons.mp hu with rfl | hu
    · decide
    · rcases List.mem_cons.mp hu with rfl | hu
      · decide
      · rcases List.mem_append.mp hu with hu | hu
        · rw [List.eq_of_mem_replicate hu]
          decide
        · exact digitUnits_lt h hu
  -- Scientific notation: the first digit, the other digits if there are any, the exponent.
  · rw [List.append_nil] at hu
    rcases List.mem_append.mp hu with hu | hu
    · exact digitUnits_lt (htake _) hu
    · exact hexponent _ (by decide) u hu
  · rw [List.append_nil] at hu
    rcases List.mem_append.mp hu with hu | hu
    · exact digitUnits_lt (htake _) hu
    · exact hexponent _ (by decide) u hu
  · rcases List.mem_append.mp hu with hu | hu
    · rcases List.mem_append.mp hu with hu | hu
      · exact digitUnits_lt (htake _) hu
      · rcases List.mem_cons.mp hu with rfl | hu
        · decide
        · exact digitUnits_lt (hdrop _) hu
    · exact hexponent _ (by decide) u hu
  · rcases List.mem_append.mp hu with hu | hu
    · rcases List.mem_append.mp hu with hu | hu
      · exact digitUnits_lt (htake _) hu
      · rcases List.mem_cons.mp hu with rfl | hu
        · decide
        · exact digitUnits_lt (hdrop _) hu
    · exact hexponent _ (by decide) u hu

theorem numberToString_lt {n : JsNumber} {u : CodeUnit} (hu : u ∈ numberToString n) :
    u.toNat < 0xd800 := by
  unfold numberToString at hu
  split at hu
  · unfold doubleToString at hu
    dsimp only at hu
    split_ifs at hu
    · exact lt_of_all (by decide : ((js "0").all fun u => decide (u.toNat < 0xd800)) = true) hu
    · rcases List.mem_append.mp hu with hu | hu
      · rw [List.mem_singleton.mp hu]
        decide
      · exact layout_lt (fun _ hd => lt_ten_of_mem_natDigits hd) _ hu
    · rw [List.nil_append] at hu
      exact layout_lt (fun _ hd => lt_ten_of_mem_natDigits hd) _ hu
  · exact lt_of_all (by decide : ((js "0").all fun u => decide (u.toNat < 0xd800)) = true) hu
  · exact lt_of_all (by decide : ((js "null").all fun u => decide (u.toNat < 0xd800)) = true) hu

/-! ## Values -/

theorem isWellFormed_cons_of_lt {u : CodeUnit} (h : u.toNat < 0xd800) (r : JsString) :
    isWellFormed (u :: r) = isWellFormed r := by
  obtain ⟨hhigh, hlow⟩ := not_surrogate_of_lt h
  rw [isWellFormed_cons_of_not_high hhigh, hlow]
  rfl

mutual

/-- A text in front of another one does not change whether that one is well formed. -/
theorem isWellFormed_render_append : ∀ (v : JsValue) (r : JsString),
    isWellFormed (render v ++ r) = isWellFormed r
  | .undefined, _ => rfl
  | .null, r => isWellFormed_append_of_all (by decide) r
  | .bool true, r => isWellFormed_append_of_all (by decide) r
  | .bool false, r => isWellFormed_append_of_all (by decide) r
  | .num _, r => isWellFormed_append_of_plain
      (fun _ hu => not_surrogate_of_lt (numberToString_lt hu)) r
  | .str s, r => isWellFormed_quote s r
  | .arr [], r => isWellFormed_append_of_all (by decide) r
  | .arr (v :: items), r => by
      show isWellFormed (0x5b :: (render v ++ renderItems items ++ r)) = _
      rw [isWellFormed_cons_of_lt (by decide), List.append_assoc, isWellFormed_render_append v,
        isWellFormed_renderItems_append items]
  | .obj [], r => isWellFormed_append_of_all (by decide) r
  | .obj ((k, v) :: members), r => by
      show isWellFormed (0x7b :: (quote k ++ 0x3a :: (render v ++ renderMembers members) ++ r)) = _
      rw [isWellFormed_cons_of_lt (by decide), List.append_assoc, isWellFormed_quote,
        List.cons_append, isWellFormed_cons_of_lt (by decide), List.append_assoc,
        isWellFormed_render_append v, isWellFormed_renderMembers_append members]

theorem isWellFormed_renderItems_append : ∀ (items : List JsValue) (r : JsString),
    isWellFormed (renderItems items ++ r) = isWellFormed r
  | [], r => isWellFormed_append_of_all (by decide) r
  | v :: items, r => by
      show isWellFormed (0x2c :: (render v ++ renderItems items ++ r)) = _
      rw [isWellFormed_cons_of_lt (by decide), List.append_assoc, isWellFormed_render_append v,
        isWellFormed_renderItems_append items]

theorem isWellFormed_renderMembers_append : ∀ (members : Members) (r : JsString),
    isWellFormed (renderMembers members ++ r) = isWellFormed r
  | [], r => isWellFormed_append_of_all (by decide) r
  | (k, v) :: members, r => by
      show isWellFormed (0x2c :: (quote k ++ 0x3a :: (render v ++ renderMembers members) ++ r)) = _
      rw [isWellFormed_cons_of_lt (by decide), List.append_assoc, isWellFormed_quote,
        List.cons_append, isWellFormed_cons_of_lt (by decide), List.append_assoc,
        isWellFormed_render_append v, isWellFormed_renderMembers_append members]

end

theorem isWellFormed_render (v : JsValue) : isWellFormed (render v) = true := by
  have h := isWellFormed_render_append v []
  rwa [List.append_nil, isWellFormed_nil] at h

/-- **Canonical JSON survives the way to bytes and back.** -/
theorem decodeUtf8_canonicalText (v : JsValue) :
    decodeUtf8 (encodeUtf8 (canonicalText v)) = some (canonicalText v) :=
  decodeUtf8_encodeUtf8 (isWellFormed_render v.canon)

end Json
end Xcs
