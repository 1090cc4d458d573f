import Xcs.Json.Parse
import Xcs.Json.Render

/-!
# Canonical text reads back

The strict parser reads the text of a value back as that value, member for member.  Strings need
it for every code unit, lone surrogates and U+0000 included; numbers rest on the shortest decimal
of a binary64 value denoting that value again.

* `parseString_escapeUnits` is the round trip of strings, `parseNumber_numberToString` that of
  numbers.
* `parseText_render` is the round trip of values, and `jsonParse_canonicalText` its form for
  the program: writing a value canonically and parsing the text changes nothing but the order of
  members and the sign of zero.
-/

namespace Xcs
namespace Json

open Js

/-! ## Strings -/

theorem parseString_cons_quote (r : JsString) : parseString (0x22 :: r) = some ([], r) := by
  cases r with
  | nil => rfl
  | cons u r =>
      rw [parseString.eq_def]
      exact if_pos (by decide)

/-- A unit that needs no escape is read as it stands. -/
theorem parseString_raw {u : CodeUnit} {t : JsString} (hlow : ¬u < 0x20) (hquote : u ≠ 0x22)
    (hslash : u ≠ 0x5c) (ht : t ≠ []) :
    parseString (u :: t) = (parseString t).map fun p => (u :: p.1, p.2) := by
  cases t with
  | nil => exact absurd rfl ht
  | cons e rest =>
      rw [parseString.eq_def]
      dsimp only
      rw [if_neg (by simpa using hquote), if_neg hlow, if_neg (by simpa using hslash)]
      cases parseString (e :: rest) with
      | none => rfl
      | some p => rfl

/-- A one-letter escape denotes its unit. -/
theorem parseString_simpleEscape {c v : CodeUnit} {t : JsString} (hc : (c == 0x75) = false)
    (hv : simpleEscape c = some v) :
    parseString (0x5c :: c :: t) = (parseString t).map fun p => (v :: p.1, p.2) := by
  rw [parseString.eq_def]
  dsimp only
  rw [if_neg (by decide), if_neg (by decide), if_pos (by decide), hc]
  simp only [Bool.false_eq_true, if_false, hv]
  cases parseString t with
  | none => rfl
  | some p => rfl

/-- A `\uXXXX` escape denotes its unit. -/
theorem parseString_hexEscape (u : CodeUnit) (t : JsString) :
    parseString (hexEscape u ++ t) = (parseString t).map fun p => (u :: p.1, p.2) := by
  have hu := u.toNat_lt
  have hval : unicodeEscape (hexDigit (u.toNat / 0x1000)) (hexDigit (u.toNat / 0x100 % 0x10))
      (hexDigit (u.toNat / 0x10 % 0x10)) (hexDigit (u.toNat % 0x10)) = some u := by
    rw [unicodeEscape, hexValue_hexDigit _ (by omega), hexValue_hexDigit _ (by omega),
      hexValue_hexDigit _ (by omega), hexValue_hexDigit _ (by omega)]
    simp only [Option.some.injEq]
    have hsum : u.toNat / 0x1000 * 0x1000 + u.toNat / 0x100 % 0x10 * 0x100
        + u.toNat / 0x10 % 0x10 * 0x10 + u.toNat % 0x10 = u.toNat := by omega
    rw [hsum]
    exact UInt16.ofNat_toNat
  rw [hexEscape]
  simp only [List.cons_append, List.nil_append]
  rw [parseString.eq_def]
  dsimp only
  rw [if_neg (by decide), if_neg (by decide), if_pos (by decide), if_pos (by decide)]
  simp only [hval]
  cases parseString t with
  | none => rfl
  | some p => rfl

theorem parseString_escapeUnit (u : CodeUnit) {t : JsString} (ht : t ≠ []) :
    parseString (escapeUnit u ++ t) = (parseString t).map fun p => (u :: p.1, p.2) := by
  unfold escapeUnit
  split_ifs with h₁ h₂ h₃ h₄ h₅ h₆ h₇ h₈
  · rw [eq_of_beq h₁]
    exact parseString_simpleEscape (by decide) rfl
  · rw [eq_of_beq h₂]
    exact parseString_simpleEscape (by decide) rfl
  · rw [eq_of_beq h₃]
    exact parseString_simpleEscape (by decide) rfl
  · rw [eq_of_beq h₄]
    exact parseString_simpleEscape (by decide) rfl
  · rw [eq_of_beq h₅]
    exact parseString_simpleEscape (by decide) rfl
  · rw [eq_of_beq h₆]
    exact parseString_simpleEscape (by decide) rfl
  · rw [eq_of_beq h₇]
    exact parseString_simpleEscape (by decide) rfl
  · exact parseString_hexEscape u t
  · exact parseString_raw h₈ (by simpa using h₁) (by simpa using h₂) ht

theorem not_special_of_surrogate {u : CodeUnit}
    (h : isHighSurrogate u = true ∨ isLowSurrogate u = true) :
    ¬u < 0x20 ∧ u ≠ 0x22 ∧ u ≠ 0x5c := by
  have hu : 0xd800 ≤ u.toNat := by
    simp only [isHighSurrogate, isLowSurrogate, Bool.and_eq_true, decide_eq_true_eq,
      UInt16.le_iff_toNat_le] at h
    rcases h with h | h
    · exact h.1
    · have := h.1
      simp at this
      omega
  refine ⟨fun hlt => ?_, ?_, ?_⟩
  · rw [UInt16.lt_iff_toNat_lt] at hlt
    simp at hlt
    omega
  · rintro rfl
    simp at hu
  · rintro rfl
    simp at hu

/-- **Strings read back.** -/
theorem parseString_escapeUnits (s r : JsString) :
    parseString (escapeUnits s ++ 0x22 :: r) = some (s, r) := by
  have hne : ∀ t : JsString, escapeUnits t ++ 0x22 :: r ≠ [] := by simp
  fun_induction escapeUnits s with
  | case1 => exact parseString_cons_quote r
  | case2 u h =>
      rw [parseString_hexEscape, parseString_cons_quote]
      rfl
  | case3 u h =>
      rw [parseString_escapeUnit u (by simp), parseString_cons_quote]
      rfl
  | case4 u v rest hu hv ih =>
      obtain ⟨h₁, h₂, h₃⟩ := not_special_of_surrogate (Or.inl hu)
      obtain ⟨h₄, h₅, h₆⟩ := not_special_of_surrogate (Or.inr hv)
      rw [List.cons_append, List.cons_append, parseString_raw h₁ h₂ h₃ (by simp),
        parseString_raw h₄ h₅ h₆ (hne rest), ih]
      rfl
  | case5 u v rest hu hv ih =>
      rw [List.append_assoc, parseString_hexEscape, ih]
      rfl
  | case6 u v rest hu hv ih =>
      rw [List.append_assoc, parseString_hexEscape, ih]
      rfl
  | case7 u v rest hu hv ih =>
      rw [List.append_assoc, parseString_escapeUnit u (hne _), ih]
      rfl

/-! ## Numbers -/

/-- The text after a number does not continue it. -/
def NumberEnd (r : JsString) : Prop :=
  ∀ u ∈ r.head?, isDigit u = false ∧ u ≠ 0x2e ∧ u ≠ 0x65 ∧ u ≠ 0x45

theorem isDigit_digitUnit : ∀ d, d < 10 →
    isDigit ((0x30 + d).toUInt16) = true ∧ (0x30 + d).toUInt16.toNat - 0x30 = d := by
  decide

theorem spanDigits_of_head {r : JsString} (h : ∀ u ∈ r.head?, isDigit u = false) :
    spanDigits r = ([], r) := by
  cases r with
  | nil => rfl
  | cons u r => rw [spanDigits, h u rfl, if_neg (by decide)]

/-- The digits in front of a text that starts with no digit. -/
theorem spanDigits_digitUnits {ds : List ℕ} {r : JsString} (hds : ∀ d ∈ ds, d < 10)
    (hr : ∀ u ∈ r.head?, isDigit u = false) : spanDigits (digitUnits ds ++ r) = (ds, r) := by
  induction ds with
  | nil => exact spanDigits_of_head hr
  | cons d ds ih =>
      rw [List.forall_mem_cons] at hds
      obtain ⟨hdigit, hval⟩ := isDigit_digitUnit d hds.1
      rw [digitUnits, List.map_cons, List.cons_append, spanDigits, hdigit, if_pos rfl, hval,
        ← digitUnits, ih hds.2]

/-- Positive leading digits are read as an integer part. -/
theorem parseInteger_digitUnits {d : ℕ} {ds : List ℕ} {r : JsString} (hd : 0 < d)
    (hds : ∀ e ∈ d :: ds, e < 10) (hr : ∀ u ∈ r.head?, isDigit u = false) :
    parseInteger (digitUnits (d :: ds) ++ r) = some (d :: ds, r) := by
  have hd10 := hds d (List.mem_cons_self ..)
  have hspan := spanDigits_digitUnits hds hr
  obtain ⟨hdigit, hval⟩ := isDigit_digitUnit d hd10
  have hne : ((0x30 + d).toUInt16 == 0x30) = false := by
    rw [beq_eq_false_iff_ne]
    intro h
    rw [h] at hval
    simp at hval
    omega
  rw [digitUnits, List.map_cons, List.cons_append, parseInteger, hne, hdigit,
    if_neg (by decide), if_pos rfl, ← hspan]
  rfl

theorem parseFraction_of_end {r : JsString} (h : ∀ u ∈ r.head?, u ≠ 0x2e) :
    parseFraction r = some ([], r) := by
  cases r with
  | nil => rfl
  | cons u r => rw [parseFraction, if_neg (by simpa using h u rfl)]

theorem parseFraction_digitUnits {ds : List ℕ} {r : JsString} (hne : ds ≠ [])
    (hds : ∀ d ∈ ds, d < 10) (hr : ∀ u ∈ r.head?, isDigit u = false) :
    parseFraction (0x2e :: (digitUnits ds ++ r)) = some (ds, r) := by
  rw [parseFraction, if_pos (by decide), spanDigits_digitUnits hds hr]
  cases ds with
  | nil => exact absurd rfl hne
  | cons d ds => rfl

theorem parseExponent_of_end {r : JsString} (h : ∀ u ∈ r.head?, u ≠ 0x65 ∧ u ≠ 0x45) :
    parseExponent r = some (0, r) := by
  cases r with
  | nil => rfl
  | cons u r =>
      obtain ⟨h₁, h₂⟩ := h u rfl
      unfold parseExponent
      exact if_neg (by simp [h₁, h₂])

theorem natDigits_ne_nil (n : ℕ) : natDigits n ≠ [] := by
  intro h
  have hn := ofDigits_natDigits n
  rw [h] at hn
  have h0 : n = 0 := hn.symm
  subst h0
  exact absurd h (by decide)

theorem parseExponent_natToString {e : ℤ} {r : JsString}
    (hr : ∀ u ∈ r.head?, isDigit u = false) :
    parseExponent (0x65 :: (if e < 0 then 0x2d else 0x2b) :: (natToString e.natAbs ++ r))
      = some (e, r) := by
  have hspan := spanDigits_digitUnits (r := r)
    (fun d hd => lt_ten_of_mem_natDigits (n := e.natAbs) hd) hr
  have hdigits : ∀ negative, parseExponentDigits negative (natToString e.natAbs ++ r)
      = some (if negative then -(e.natAbs : ℤ) else e.natAbs, r) := by
    intro negative
    rw [parseExponentDigits, natToString, hspan]
    cases hds : natDigits e.natAbs with
    | nil => exact absurd hds (natDigits_ne_nil _)
    | cons d ds =>
        dsimp only
        rw [← hds, ofDigits_natDigits]
  rw [parseExponent, if_pos (by decide)]
  by_cases he : e < 0
  · rw [if_pos he, if_pos (by decide), hdigits]
    simp only [if_true, Option.some.injEq, Prod.mk.injEq, and_true]
    omega
  · rw [if_neg he, if_neg (by decide), if_pos (by decide), hdigits]
    simp only [Bool.false_eq_true, if_false, Option.some.injEq, Prod.mk.injEq, and_true]
    omega

theorem ofDigits_replicate_zero (k : ℕ) : ofDigits (List.replicate k 0) = 0 := by
  induction k with
  | zero => rfl
  | succ k ih =>
      have hcons : List.replicate (k + 1) 0 = [0] ++ List.replicate k 0 := rfl
      rw [hcons, ofDigits_append, ih]
      simp [ofDigits, ofDigitsAux]

theorem digitUnits_replicate_zero (k : ℕ) :
    digitUnits (List.replicate k 0) = List.replicate k 0x30 := by
  rw [digitUnits, List.map_replicate]
  rfl

theorem digitUnits_append (xs ys : List ℕ) :
    digitUnits (xs ++ ys) = digitUnits xs ++ digitUnits ys :=
  List.map_append

/-- Reading an integer part, a fraction and an exponent. -/
theorem parseUnsigned_eq {negative : Bool} {s s₁ s₂ r : JsString} {integer fraction : List ℕ}
    {e : ℤ} (h₁ : parseInteger s = some (integer, s₁))
    (h₂ : parseFraction s₁ = some (fraction, s₂)) (h₃ : parseExponent s₂ = some (e, r)) :
    parseUnsigned negative s = some (JsNumber.ofDecimal negative
      (ofDigits (integer ++ fraction)) (e - fraction.length), r) := by
  simp [parseUnsigned, h₁, h₂, h₃]

section Layout

variable {negative : Bool} {d : ℕ} {ds : List ℕ} {r : JsString}

theorem NumberEnd.digit (h : NumberEnd r) : ∀ u ∈ r.head?, isDigit u = false :=
  fun u hu => (h u hu).1

theorem NumberEnd.fraction (h : NumberEnd r) : parseFraction r = some ([], r) :=
  parseFraction_of_end fun u hu => (h u hu).2.1

theorem NumberEnd.exponent (h : NumberEnd r) : parseExponent r = some (0, r) :=
  parseExponent_of_end fun u hu => (h u hu).2.2

/-- The layout without a point. -/
theorem parseUnsigned_integer (hd : 0 < d) (hds : ∀ e ∈ d :: ds, e < 10) (hr : NumberEnd r)
    (k : ℕ) : parseUnsigned negative (digitUnits (d :: ds) ++ List.replicate k 0x30 ++ r)
      = some (JsNumber.ofDecimal negative (ofDigits (d :: ds) * 10 ^ k) 0, r) := by
  have hall : ∀ e ∈ d :: (ds ++ List.replicate k 0), e < 10 := by
    intro e he
    rw [← List.cons_append, List.mem_append] at he
    rcases he with he | he
    · exact hds e he
    · rw [List.eq_of_mem_replicate he]
      norm_num
  have hinteger := parseInteger_digitUnits hd hall hr.digit
  rw [← List.cons_append, digitUnits_append, digitUnits_replicate_zero] at hinteger
  rw [parseUnsigned_eq hinteger hr.fraction hr.exponent, List.append_nil, ofDigits_append,
    ofDigits_replicate_zero, List.length_replicate]
  rfl

/-- The layout with a point between the digits. -/
theorem parseUnsigned_point {xs : List ℕ} (hd : 0 < d) (hds : ∀ e ∈ d :: ds, e < 10)
    (hne : xs ≠ []) (hxs : ∀ e ∈ xs, e < 10) (hr : NumberEnd r) :
    parseUnsigned negative (digitUnits (d :: ds) ++ 0x2e :: (digitUnits xs ++ r))
      = some (JsNumber.ofDecimal negative (ofDigits (d :: ds ++ xs)) (0 - xs.length), r) :=
  parseUnsigned_eq (parseInteger_digitUnits hd hds (by simp [isDigit]))
    (parseFraction_digitUnits hne hxs hr.digit) hr.exponent

/-- The layout that begins with a zero and a point. -/
theorem parseUnsigned_small (hds : ∀ e ∈ d :: ds, e < 10) (hr : NumberEnd r) (k : ℕ) :
    parseUnsigned negative
        (0x30 :: 0x2e :: (List.replicate k 0x30 ++ digitUnits (d :: ds) ++ r))
      = some (JsNumber.ofDecimal negative (ofDigits (d :: ds))
          (0 - (k + (d :: ds).length : ℕ)), r) := by
  have hall : ∀ e ∈ List.replicate k 0 ++ d :: ds, e < 10 := by
    intro e he
    rcases List.mem_append.mp he with he | he
    · rw [List.eq_of_mem_replicate he]
      norm_num
    · exact hds e he
  have hinteger : parseInteger
      (0x30 :: 0x2e :: (List.replicate k 0x30 ++ digitUnits (d :: ds) ++ r))
      = some ([0], 0x2e :: (digitUnits (List.replicate k 0 ++ d :: ds) ++ r)) := by
    rw [digitUnits_append, digitUnits_replicate_zero]
    rfl
  rw [parseUnsigned_eq hinteger (parseFraction_digitUnits (by simp) hall hr.digit) hr.exponent]
  have hzero : ofDigits ([0] ++ (List.replicate k 0 ++ d :: ds)) = ofDigits (d :: ds) := by
    rw [ofDigits_append, ofDigits_append, ofDigits_replicate_zero]
    simp [ofDigits, ofDigitsAux]
  rw [hzero, List.length_append, List.length_replicate]

/-- The layout with an exponent. -/
theorem parseUnsigned_exponent (hd : 0 < d) (hds : ∀ e ∈ d :: ds, e < 10) (hr : NumberEnd r)
    (e : ℤ) : parseUnsigned negative (digitUnits [d]
        ++ (if (d :: ds).length = 1 then [] else 0x2e :: digitUnits ds)
        ++ 0x65 :: (if e < 0 then 0x2d else 0x2b) :: natToString e.natAbs ++ r)
      = some (JsNumber.ofDecimal negative (ofDigits (d :: ds)) (e - ds.length), r) := by
  have hexponent := parseExponent_natToString (e := e) hr.digit
  rw [List.forall_mem_cons] at hds
  cases ds with
  | nil =>
      have hinteger := @parseInteger_digitUnits d []
        (0x65 :: (if e < 0 then 0x2d else 0x2b) :: (natToString e.natAbs ++ r)) hd
        (by simpa using hds.1) (by simp [isDigit])
      have hfraction := parseFraction_of_end
        (r := 0x65 :: (if e < 0 then 0x2d else 0x2b) :: (natToString e.natAbs ++ r)) (by simp)
      simpa using @parseUnsigned_eq negative _ _ _ _ _ _ _ hinteger hfraction hexponent
  | cons x xs =>
      have hinteger := @parseInteger_digitUnits d []
        (0x2e :: (digitUnits (x :: xs)
          ++ 0x65 :: (if e < 0 then 0x2d else 0x2b) :: (natToString e.natAbs ++ r))) hd
        (by simpa using hds.1) (by simp [isDigit])
      have hfraction := parseFraction_digitUnits
        (r := 0x65 :: (if e < 0 then 0x2d else 0x2b) :: (natToString e.natAbs ++ r))
        (List.cons_ne_nil x xs) hds.2 (by simp [isDigit])
      simpa using @parseUnsigned_eq negative _ _ _ _ _ _ _ hinteger hfraction hexponent

/-- Every layout denotes its digits. -/
theorem parseUnsigned_layout (hd : 0 < d) (hds : ∀ e ∈ d :: ds, e < 10) (hr : NumberEnd r)
    (n : ℤ) : ∃ m p, parseUnsigned negative (layout (d :: ds) n ++ r)
        = some (JsNumber.ofDecimal negative m p, r) ∧
      (m : ℚ) * 10 ^ p = ofDigits (d :: ds) * 10 ^ (n - (d :: ds).length) := by
  unfold layout
  dsimp only
  by_cases h₁ : ((d :: ds).length : ℤ) ≤ n ∧ n ≤ 21
  · rw [if_pos h₁]
    refine ⟨_, _, parseUnsigned_integer hd hds hr _, ?_⟩
    push_cast
    rw [mul_one, ← zpow_natCast, Int.toNat_of_nonneg (by omega)]
  rw [if_neg h₁]
  by_cases h₂ : 0 < n ∧ n ≤ 21
  · rw [if_pos h₂]
    obtain ⟨k, hk⟩ : ∃ k : ℕ, n = k + 1 := ⟨(n - 1).toNat, by omega⟩
    have hlen : k + 1 < (d :: ds).length := by omega
    have htake : (d :: ds).take n.toNat = d :: ds.take k := by
      rw [hk, show ((k : ℤ) + 1).toNat = k + 1 by omega, List.take_succ_cons]
    have hdrop : (d :: ds).drop n.toNat = ds.drop k := by
      rw [hk, show ((k : ℤ) + 1).toNat = k + 1 by omega, List.drop_succ_cons]
    have hlt : ∀ e ∈ d :: ds.take k, e < 10 := fun e he => hds e (by
      rcases List.mem_cons.mp he with rfl | he
      · exact List.mem_cons_self ..
      · exact List.mem_cons_of_mem _ (List.mem_of_mem_take he))
    have hlt' : ∀ e ∈ ds.drop k, e < 10 := fun e he =>
      hds e (List.mem_cons_of_mem _ (List.mem_of_mem_drop he))
    have hne : ds.drop k ≠ [] := by
      rw [List.length_cons] at hlen
      simpa using hlen
    refine ⟨ofDigits (d :: ds), n - (d :: ds).length, ?_, rfl⟩
    rw [htake, hdrop, List.append_assoc, List.cons_append,
      parseUnsigned_point hd hlt hne hlt' hr, List.cons_append, List.take_append_drop,
      List.length_drop]
    congr 3
    rw [List.length_cons] at hlen ⊢
    omega
  rw [if_neg h₂]
  by_cases h₃ : -6 < n ∧ n ≤ 0
  · rw [if_pos h₃]
    refine ⟨_, _, parseUnsigned_small hds hr _, ?_⟩
    congr 2
    push_cast
    omega
  · rw [if_neg h₃]
    refine ⟨_, _, parseUnsigned_exponent hd hds hr (n - 1), ?_⟩
    congr 2
    rw [List.length_cons]
    push_cast
    omega

end Layout

/-- A decimal is read as its value: the digits it is written with do not matter. -/
theorem ofDecimal_eq_of_value {negative : Bool} {m m' : ℕ} {p p' : ℤ}
    (h : (m : ℚ) * 10 ^ p = m' * 10 ^ p') :
    JsNumber.ofDecimal negative m p = JsNumber.ofDecimal negative m' p' := by
  unfold JsNumber.ofDecimal
  rw [h]

/-- Moving zeros into the exponent keeps the value. -/
theorem stripZeros_value (fuel s : ℕ) (p : ℤ) :
    ((stripZeros fuel s p).1 : ℚ) * 10 ^ (stripZeros fuel s p).2 = s * 10 ^ p := by
  induction fuel generalizing s p with
  | zero => rfl
  | succ fuel ih =>
      rw [stripZeros]
      split_ifs with h
      · have hs : (s : ℚ) = (s / 10 : ℕ) * 10 := by
          exact_mod_cast (Nat.div_mul_cancel (Nat.dvd_of_mod_eq_zero h)).symm
        rw [ih, zpow_add₀ (by norm_num), zpow_one]
        conv_rhs => rw [hs]
        ring
      · rfl

/-- The digits of a nonzero number denote it again. -/
theorem ofDecimal_decimalOf {d : Double} (hd : d.val ≠ 0) :
    JsNumber.ofDecimal (decide (d.val < 0)) (decimalOf d.val).1 (decimalOf d.val).2
      = .finite d := by
  have hread := roundBinary64_shortestDecimal d.exact
  have hvalue := stripZeros_value (shortestDecimal d.val).1 (shortestDecimal d.val).1
    (shortestDecimal d.val).2
  rw [decimalOf, ofDecimal_eq_of_value hvalue]
  unfold JsNumber.ofDecimal
  have hq : (if decide (d.val < 0) = true
        then -((shortestDecimal d.val).1 * 10 ^ (shortestDecimal d.val).2 : ℚ)
        else (shortestDecimal d.val).1 * 10 ^ (shortestDecimal d.val).2)
      = decimalValue d.val.num.sign (shortestDecimal d.val).1 (shortestDecimal d.val).2 := by
    rcases lt_or_gt_of_ne hd with hlt | hgt
    · rw [if_pos (by simpa using hlt), decimalValue,
        Int.sign_eq_neg_one_of_neg (Rat.num_neg.mpr hlt)]
      push_cast
      ring
    · rw [if_neg (by simpa using hgt.le), decimalValue,
        Int.sign_eq_one_of_pos (Rat.num_pos.mpr hgt)]
      push_cast
      ring
  dsimp only
  rw [hq, hread, decide_eq_false hd, Bool.and_false, if_neg (by decide)]
  exact JsNumber.ofRat_val d hread

theorem decimalOf_pos {d : Double} (hd : d.val ≠ 0) : 0 < (decimalOf d.val).1 := by
  rw [Nat.pos_iff_ne_zero]
  intro hzero
  have hread := ofDecimal_decimalOf hd
  have hfinite : JsNumber.ofDecimal (decide (d.val < 0)) 0 (decimalOf d.val).2 ≠ .finite d := by
    have hround : roundBinary64 0 = 0 := by
      simpa using JsNumber.roundBinary64_intCast (z := 0) (by norm_num)
    unfold JsNumber.ofDecimal
    simp only [Nat.cast_zero, zero_mul, neg_zero, ite_self, hround, decide_true, Bool.and_true]
    split_ifs
    · simp
    · rw [JsNumber.ofRat]
      simp only [hround, abs_zero]
      rw [dif_pos (by positivity)]
      intro heq
      exact hd (congrArg Double.val (JsNumber.finite.inj heq)).symm
  exact hfinite (hzero ▸ hread)

/-- A unit that begins a number. -/
def isNumberStart (u : CodeUnit) : Bool :=
  u == 0x2d || isDigit u

/-- The text of a finite number begins with a sign or a digit. -/
theorem layout_head {ds : List ℕ} (hne : ds ≠ []) (hds : ∀ e ∈ ds, e < 10) (n : ℤ) :
    ∃ u t, layout ds n = u :: t ∧ isDigit u = true := by
  cases ds with
  | nil => exact absurd rfl hne
  | cons d ds =>
      obtain ⟨hdigit, -⟩ := isDigit_digitUnit d (hds d (List.mem_cons_self ..))
      unfold layout
      dsimp only
      by_cases h₁ : ((d :: ds).length : ℤ) ≤ n ∧ n ≤ 21
      · rw [if_pos h₁]
        exact ⟨_, _, rfl, hdigit⟩
      rw [if_neg h₁]
      by_cases h₂ : 0 < n ∧ n ≤ 21
      · rw [if_pos h₂]
        obtain ⟨k, hk⟩ : ∃ k : ℕ, n.toNat = k + 1 := ⟨n.toNat - 1, by omega⟩
        rw [hk]
        exact ⟨_, _, rfl, hdigit⟩
      rw [if_neg h₂]
      by_cases h₃ : -6 < n ∧ n ≤ 0
      · rw [if_pos h₃]
        exact ⟨_, _, rfl, by decide⟩
      · rw [if_neg h₃]
        exact ⟨_, _, rfl, hdigit⟩

/-- **Numbers read back.** -/
theorem parseNumber_numberToString (d : Double) {r : JsString} (hr : NumberEnd r) :
    parseNumber (numberToString (.finite d) ++ r) = some (.finite d, r) := by
  rw [numberToString, doubleToString]
  by_cases hd : d.val = 0
  · rw [if_pos hd]
    have hzero : (.finite d : JsNumber) = JsNumber.ofDecimal false 0 0 := by
      have hround : roundBinary64 0 = 0 := by
        simpa using JsNumber.roundBinary64_intCast (z := 0) (by norm_num)
      unfold JsNumber.ofDecimal
      simp only [Nat.cast_zero, zero_mul, Bool.false_eq_true, if_false, Bool.false_and]
      exact (JsNumber.ofRat_val d (hround.trans hd.symm)).symm
    have hinteger : parseInteger (js "0" ++ r) = some ([0], r) := rfl
    have hread := @parseUnsigned_eq false _ _ _ _ _ _ _ hinteger hr.fraction hr.exponent
    rw [hzero]
    exact hread
  · rw [if_neg hd]
    obtain ⟨e, es, hdigits, he⟩ := natDigits_head (decimalOf_pos hd)
    have hall : ∀ x ∈ e :: es, x < 10 := fun x hx =>
      lt_ten_of_mem_natDigits (n := (decimalOf d.val).1) (hdigits ▸ hx)
    dsimp only
    rw [hdigits]
    obtain ⟨m, p, hparse, hvalue⟩ := @parseUnsigned_layout (decide (d.val < 0)) e es r he hall
      hr ((e :: es).length + (decimalOf d.val).2)
    have hsame : JsNumber.ofDecimal (decide (d.val < 0)) m p = .finite d := by
      rw [← ofDecimal_decimalOf hd]
      refine ofDecimal_eq_of_value (hvalue.trans ?_)
      rw [← hdigits, ofDigits_natDigits, add_sub_cancel_left]
    rw [hsame] at hparse
    by_cases hneg : d.val < 0
    · rw [if_pos hneg, List.append_assoc]
      simp only [hneg, decide_true] at hparse
      exact hparse
    · rw [if_neg hneg, List.nil_append]
      simp only [hneg, decide_false] at hparse
      obtain ⟨u, t, hu, hdigit⟩ := layout_head (List.cons_ne_nil e es) hall
        ((e :: es).length + (decimalOf d.val).2)
      rw [hu] at hparse ⊢
      rw [List.cons_append, parseNumber, if_neg ?_]
      · exact hparse
      · intro hminus
        rw [eq_of_beq hminus] at hdigit
        exact absurd hdigit (by decide)

theorem numberToString_head (d : Double) :
    ∃ u t, numberToString (.finite d) = u :: t ∧ isNumberStart u = true := by
  rw [numberToString, doubleToString]
  by_cases hd : d.val = 0
  · rw [if_pos hd]
    exact ⟨_, _, rfl, by decide⟩
  · rw [if_neg hd]
    dsimp only
    by_cases hneg : d.val < 0
    · rw [if_pos hneg]
      exact ⟨_, _, rfl, by decide⟩
    · rw [if_neg hneg, List.nil_append]
      obtain ⟨u, t, hu, hdigit⟩ := layout_head (natDigits_ne_nil (decimalOf d.val).1)
        (fun x hx => lt_ten_of_mem_natDigits hx)
        ((natDigits (decimalOf d.val).1).length + (decimalOf d.val).2)
      exact ⟨u, t, hu, by rw [isNumberStart, hdigit, Bool.or_true]⟩

/-! ## Values -/

/-- The values whose text reads back exactly: JSON values without a negative zero. -/
def isRenderable : JsValue → Bool :=
  JsValue.every fun
    | .undefined => false
    | .num (.finite _) => true
    | .num _ => false
    | _ => true

@[simp] theorem isRenderable_arr (items : List JsValue) :
    isRenderable (.arr items) = items.all isRenderable := by
  simp [isRenderable]

@[simp] theorem isRenderable_obj (members : Members) :
    isRenderable (.obj members) = members.all fun m => isRenderable m.2 := by
  simp [isRenderable]

/-- The canonical form of a JSON value is renderable. -/
theorem isRenderable_canon {v : JsValue} (h : v.isJson = true) : isRenderable v.canon = true := by
  induction v using JsValue.induct with
  | undefined => cases h
  | null => rfl
  | bool b => rfl
  | str s => rfl
  | num n => cases n <;> first | rfl | cases h
  | arr items ih =>
      rw [JsValue.isJson_arr, List.all_eq_true] at h
      rw [JsValue.canon_arr, isRenderable_arr, List.all_map, List.all_eq_true]
      exact fun v hv => ih v hv (h v hv)
  | obj members ih =>
      rw [JsValue.isJson_obj, List.all_eq_true] at h
      rw [JsValue.canon_obj, isRenderable_obj, List.all_eq_true]
      intro m hm
      obtain ⟨n, hn, rfl⟩ := List.mem_map.mp (mem_sortMembers.mp hm)
      exact ih n hn (h n hn)

theorem skipWhitespace_cons {u : CodeUnit} (h : isWhitespace u = false) (r : JsString) :
    skipWhitespace (u :: r) = u :: r := by
  rw [skipWhitespace, h]
  rfl

theorem numberEnd_cons {u : CodeUnit}
    (h : (isDigit u || u == 0x2e || u == 0x65 || u == 0x45) = false) (r : JsString) :
    NumberEnd (u :: r) := by
  intro v hv
  cases hv
  simpa [and_assoc] using h

theorem numberEnd_renderItems (items : List JsValue) (r : JsString) :
    NumberEnd (renderItems items ++ r) := by
  cases items <;> exact numberEnd_cons (by decide) _

theorem numberEnd_renderMembers (members : Members) (r : JsString) :
    NumberEnd (renderMembers members ++ r) := by
  rcases members with _ | ⟨m, members⟩ <;> exact numberEnd_cons (by decide) _

/-- A unit that begins a number begins nothing else. -/
theorem parseValue_number {fuel : ℕ} {u : CodeUnit} {rest : JsString}
    (h : isNumberStart u = true) :
    parseValue (fuel + 1) (u :: rest)
      = (parseNumber (u :: rest)).map fun p => (.num p.1, p.2) := by
  have hne : ∀ v : CodeUnit, isNumberStart v = false → (u == v) = false := by
    intro v hv
    rw [beq_eq_false_iff_ne]
    rintro rfl
    rw [h] at hv
    cases hv
  have hspace : isWhitespace u = false := by
    rw [isWhitespace, hne _ (by decide), hne _ (by decide), hne _ (by decide), hne _ (by decide)]
    rfl
  rw [parseValue, skipWhitespace_cons hspace]
  dsimp only
  rw [hne 0x22 (by decide), hne 0x5b (by decide), hne 0x7b (by decide), hne 0x74 (by decide),
    hne 0x66 (by decide), hne 0x6e (by decide)]
  rfl

/-- The text of a value begins neither with whitespace nor with a closing bracket. -/
theorem render_head {v : JsValue} (h : isRenderable v = true) :
    ∃ u t, render v = u :: t ∧ isWhitespace u = false ∧ (u == 0x5d) = false := by
  have hstart : ∀ u, isNumberStart u = true → isWhitespace u = false ∧ (u == 0x5d) = false := by
    intro u hu
    have hne : ∀ w : CodeUnit, isNumberStart w = false → (u == w) = false := by
      intro w hw
      rw [beq_eq_false_iff_ne]
      rintro rfl
      rw [hu] at hw
      cases hw
    rw [isWhitespace, hne _ (by decide), hne _ (by decide), hne _ (by decide), hne _ (by decide)]
    exact ⟨rfl, hne _ (by decide)⟩
  rcases v with _ | _ | (_ | _) | n | s | (_ | ⟨v, items⟩) | (_ | ⟨⟨k, v⟩, members⟩)
  · cases h
  · exact ⟨_, _, rfl, by decide, by decide⟩
  · exact ⟨_, _, rfl, by decide, by decide⟩
  · exact ⟨_, _, rfl, by decide, by decide⟩
  · rcases n with _ | _ | _ | d
    · cases h
    · cases h
    · cases h
    · obtain ⟨u, t, hu, hnumber⟩ := numberToString_head d
      exact ⟨u, t, hu, hstart u hnumber⟩
  · exact ⟨_, _, rfl, by decide, by decide⟩
  · exact ⟨_, _, rfl, by decide, by decide⟩
  · exact ⟨_, _, rfl, by decide, by decide⟩
  · exact ⟨_, _, rfl, by decide, by decide⟩
  · exact ⟨_, _, rfl, by decide, by decide⟩

/-- A key, a colon and the text of a value read back, if the value does. -/
theorem parseMember_render {k : JsString} {v : JsValue} {n : ℕ} {r : JsString}
    (hv : parseValue n (render v ++ r) = some (v, r)) :
    parseMember (n + 1) (quote k ++ 0x3a :: (render v ++ r)) = some ((k, v), r) := by
  rw [quote, List.cons_append, List.append_assoc, parseMember, skipWhitespace_cons (by decide)]
  dsimp only
  rw [if_pos (by decide), List.singleton_append, parseString_escapeUnits]
  dsimp only
  rw [skipWhitespace_cons (by decide)]
  dsimp only
  rw [if_pos (by decide), hv]
  rfl

mutual

theorem parseValue_render : ∀ (v : JsValue) (n : ℕ) (r : JsString), isRenderable v = true →
    2 * (render v).length ≤ n → NumberEnd r → parseValue n (render v ++ r) = some (v, r)
  | .undefined, _, _, h, _, _ => by cases h
  | .null, n, r, _, hn, _ => by
      obtain ⟨n, rfl⟩ : ∃ m, n = m + 1 := ⟨n - 1, by simp [render, js] at hn; omega⟩
      rfl
  | .bool true, n, r, _, hn, _ => by
      obtain ⟨n, rfl⟩ : ∃ m, n = m + 1 := ⟨n - 1, by simp [render, js] at hn; omega⟩
      rfl
  | .bool false, n, r, _, hn, _ => by
      obtain ⟨n, rfl⟩ : ∃ m, n = m + 1 := ⟨n - 1, by simp [render, js] at hn; omega⟩
      rfl
  | .num .nan, _, _, h, _, _ => by cases h
  | .num (.infinity _), _, _, h, _, _ => by cases h
  | .num .negZero, _, _, h, _, _ => by cases h
  | .num (.finite d), n, r, _, hn, hr => by
      obtain ⟨u, t, hu, hstart⟩ := numberToString_head d
      rw [render] at hn ⊢
      have hread := parseNumber_numberToString d hr
      rw [hu] at hn hread ⊢
      obtain ⟨n, rfl⟩ : ∃ m, n = m + 1 := ⟨n - 1, by simp at hn; omega⟩
      rw [List.cons_append] at hread ⊢
      rw [parseValue_number hstart, hread]
      rfl
  | .str s, n, r, _, hn, _ => by
      obtain ⟨n, rfl⟩ : ∃ m, n = m + 1 := ⟨n - 1, by simp [render, quote] at hn; omega⟩
      rw [render, quote, List.cons_append, List.append_assoc, parseValue,
        skipWhitespace_cons (by decide)]
      dsimp only
      rw [if_pos (by decide), List.singleton_append, parseString_escapeUnits]
      rfl
  | .arr [], n, r, _, hn, _ => by
      obtain ⟨n, rfl⟩ : ∃ m, n = m + 1 := ⟨n - 1, by simp [render] at hn; omega⟩
      rfl
  | .arr (v :: items), n, r, h, hn, _ => by
      rw [isRenderable_arr, List.all_cons, Bool.and_eq_true] at h
      rw [render] at hn ⊢
      simp only [List.length_cons, List.length_append] at hn
      obtain ⟨n, rfl⟩ : ∃ m, n = m + 1 := ⟨n - 1, by omega⟩
      have hv := parseValue_render v n (renderItems items ++ r) h.1 (by omega)
        (numberEnd_renderItems items r)
      have hitems := parseItems_render items n r h.2 (by omega)
      obtain ⟨u, t, hu, hspace, hbracket⟩ := render_head h.1
      rw [hu] at hv ⊢
      simp only [List.cons_append, List.append_assoc] at hv ⊢
      rw [parseValue, skipWhitespace_cons (by decide)]
      dsimp only
      rw [if_neg (by decide), if_pos (by decide), skipWhitespace_cons hspace]
      dsimp only
      rw [hbracket, if_neg (by decide), hv]
      dsimp only
      rw [hitems]
      rfl
  | .obj [], n, r, _, hn, _ => by
      obtain ⟨n, rfl⟩ : ∃ m, n = m + 1 := ⟨n - 1, by simp [render] at hn; omega⟩
      rfl
  | .obj ((k, v) :: members), n, r, h, hn, _ => by
      rw [isRenderable_obj, List.all_cons, Bool.and_eq_true] at h
      rw [render] at hn ⊢
      simp only [List.length_cons, List.length_append, quote] at hn
      obtain ⟨n, rfl⟩ : ∃ m, n = m + 2 := ⟨n - 2, by omega⟩
      have hv := parseValue_render v n (renderMembers members ++ r) h.1 (by omega)
        (numberEnd_renderMembers members r)
      have hmembers := parseMembers_render members (n + 1) r h.2 (by omega)
      have hmember := parseMember_render (k := k) hv
      rw [quote] at hmember ⊢
      simp only [List.cons_append, List.append_assoc] at hmember ⊢
      rw [parseValue, skipWhitespace_cons (by decide)]
      dsimp only
      rw [if_neg (by decide), if_neg (by decide), if_pos (by decide),
        skipWhitespace_cons (by decide)]
      dsimp only
      rw [if_neg (by decide), hmember]
      dsimp only
      rw [hmembers]
      rfl

theorem parseItems_render : ∀ (items : List JsValue) (n : ℕ) (r : JsString),
    items.all isRenderable = true → 2 * (renderItems items).length ≤ n →
      parseItems n (renderItems items ++ r) = some (items, r)
  | [], n, r, _, hn => by
      obtain ⟨n, rfl⟩ : ∃ m, n = m + 1 := ⟨n - 1, by simp [renderItems] at hn; omega⟩
      rfl
  | v :: items, n, r, h, hn => by
      rw [List.all_cons, Bool.and_eq_true] at h
      rw [renderItems] at hn ⊢
      simp only [List.length_cons, List.length_append] at hn
      obtain ⟨n, rfl⟩ : ∃ m, n = m + 1 := ⟨n - 1, by omega⟩
      have hv := parseValue_render v n (renderItems items ++ r) h.1 (by omega)
        (numberEnd_renderItems items r)
      have hitems := parseItems_render items n r h.2 (by omega)
      rw [List.cons_append, List.append_assoc, parseItems, skipWhitespace_cons (by decide)]
      dsimp only
      rw [if_neg (by decide), if_pos (by decide), hv]
      dsimp only
      rw [hitems]
      rfl

theorem parseMembers_render : ∀ (members : Members) (n : ℕ) (r : JsString),
    (members.all fun m => isRenderable m.2) = true → 2 * (renderMembers members).length ≤ n →
      parseMembers n (renderMembers members ++ r) = some (members, r)
  | [], n, r, _, hn => by
      obtain ⟨n, rfl⟩ : ∃ m, n = m + 1 := ⟨n - 1, by simp [renderMembers] at hn; omega⟩
      rfl
  | (k, v) :: members, n, r, h, hn => by
      rw [List.all_cons, Bool.and_eq_true] at h
      rw [renderMembers] at hn ⊢
      simp only [List.length_cons, List.length_append, quote] at hn
      obtain ⟨n, rfl⟩ : ∃ m, n = m + 2 := ⟨n - 2, by omega⟩
      have hv := parseValue_render v n (renderMembers members ++ r) h.1 (by omega)
        (numberEnd_renderMembers members r)
      have hmembers := parseMembers_render members (n + 1) r h.2 (by omega)
      have hmember := parseMember_render (k := k) hv
      simp only [List.cons_append, List.append_assoc] at hmember ⊢
      rw [parseMembers, skipWhitespace_cons (by decide)]
      dsimp only
      rw [if_neg (by decide), if_pos (by decide), hmember]
      dsimp only
      rw [hmembers]
      rfl

end

/-- **Values read back.**  The text of a renderable value has that value as its syntax tree. -/
theorem parseText_render {v : JsValue} (h : isRenderable v = true) :
    parseText (render v) = some v := by
  have hread := parseValue_render v (2 * (render v).length + 1) [] h (by omega)
    (by simp [NumberEnd])
  rw [List.append_nil] at hread
  rw [parseText, hread]
  rfl

/-- What `JSON.parse` makes of the text of a value. -/
theorem jsonParse_render {v : JsValue} (h : isRenderable v = true) :
    jsonParse (render v) = some (materialize v) := by
  rw [jsonParse, parseText_render h]
  rfl

/-- What `JSON.parse` makes of a canonical text. -/
theorem jsonParse_canonicalText {v : JsValue} (h : v.isJson = true) :
    jsonParse (canonicalText v) = some (materialize v.canon) :=
  jsonParse_render (isRenderable_canon h)

/-- Writing a JSON value canonically and parsing the text gives a value with the same canonical
form. -/
theorem canon_materialize_canon {v : JsValue} (h : v.distinctKeys = true) :
    (materialize v.canon).canon = v.canon := by
  rw [canon_materialize (by rwa [JsValue.distinctKeys_canon]), JsValue.canon_canon]

end Json
end Xcs
