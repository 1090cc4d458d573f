import Xcs.Js.Utf8
import Xcs.Json.Render

/-!
# The text of an integer

`Number::toString` looks for the fewest digits that round back to a number.  For an integer of at
most 53 bits it finds the integer itself, with the trailing zeros in the exponent, and lays it out
as its decimal digits.

* `natDigits_mul_ten` and `length_natDigits_le` describe the digits of a natural, and
  `natDigits_ofDigits` says that there are no others.
* `map_digitUnits` and `digitUnits_map`: a decimal text and its digits determine each other.
* `numberToString_ofNat`: below 10^21 an integer is written with its digits.
-/

namespace Xcs
namespace Json

open Js

/-! ## Digits -/

theorem natDigitsAux_eq_append (fuel n : ℕ) (acc : List ℕ) :
    natDigitsAux fuel n acc = natDigitsAux fuel n [] ++ acc := by
  induction fuel generalizing n acc with
  | zero => rfl
  | succ fuel ih =>
      rw [natDigitsAux, natDigitsAux]
      split_ifs with h
      · rfl
      · rw [ih, ih (n / 10) [n % 10], List.append_assoc]
        rfl

theorem natDigitsAux_fuel {fuel fuel' n : ℕ} (h : n < fuel) (h' : n < fuel') (acc : List ℕ) :
    natDigitsAux fuel n acc = natDigitsAux fuel' n acc := by
  induction fuel generalizing fuel' n acc with
  | zero => omega
  | succ fuel ih =>
      cases fuel' with
      | zero => omega
      | succ fuel' =>
          rw [natDigitsAux, natDigitsAux]
          split_ifs with hn
          · rfl
          · exact ih (by omega) (by omega) _

theorem natDigits_of_lt {n : ℕ} (h : n < 10) : natDigits n = [n] := by
  rw [natDigits, natDigitsAux, if_pos h]

/-- The last digit of a natural, and the digits before it. -/
theorem natDigits_of_le {n : ℕ} (h : 10 ≤ n) : natDigits n = natDigits (n / 10) ++ [n % 10] := by
  rw [natDigits, natDigitsAux, if_neg (by omega), natDigitsAux_eq_append, natDigits,
    natDigitsAux_fuel (show n / 10 < n by omega) (Nat.lt_succ_self _)]

theorem natDigits_mul_ten {n : ℕ} (hn : 0 < n) : natDigits (n * 10) = natDigits n ++ [0] := by
  rw [natDigits_of_le (by omega), Nat.mul_div_cancel _ (by norm_num), Nat.mul_mod_left]

theorem natDigits_mul_pow {n : ℕ} (hn : 0 < n) (t : ℕ) :
    natDigits (n * 10 ^ t) = natDigits n ++ List.replicate t 0 := by
  induction t with
  | zero => rw [pow_zero, mul_one, List.replicate_zero, List.append_nil]
  | succ t ih =>
      rw [pow_succ, ← mul_assoc, natDigits_mul_ten (by positivity), ih, List.append_assoc,
        List.replicate_succ']

/-- A natural below `10 ^ (k + 1)` has at most `k + 1` digits. -/
theorem length_natDigits_le {n k : ℕ} (h : n < 10 ^ (k + 1)) : (natDigits n).length ≤ k + 1 := by
  induction k generalizing n with
  | zero =>
      rw [natDigits_of_lt (by omega)]
      exact le_refl 1
  | succ k ih =>
      by_cases hn : n < 10
      · rw [natDigits_of_lt hn, List.length_singleton]
        omega
      · rw [natDigits_of_le (by omega), List.length_append, List.length_singleton]
        have hshift : n / 10 < 10 ^ (k + 1) := by
          rw [Nat.div_lt_iff_lt_mul (by norm_num), ← pow_succ]
          exact h
        have := ih hshift
        omega

/-- **Uniqueness.**  Digits without a leading zero are the digits of the natural they denote. -/
theorem natDigits_ofDigits {ds : List ℕ} (hds : ∀ d ∈ ds, d < 10) (hne : ds ≠ [])
    (hhead : 1 < ds.length → ds.head? ≠ some 0) : natDigits (ofDigits ds) = ds := by
  -- The induction takes the last digit away; what is left has no leading zero either.
  induction ds using List.reverseRecOn with
  | nil => exact absurd rfl hne
  | append_singleton front d ih =>
      have hd : d < 10 := hds d (by simp)
      have hvalue : ofDigits (front ++ [d]) = ofDigits front * 10 + d := by
        rw [ofDigits_append]
        simp [ofDigits, ofDigitsAux]
      by_cases hfront : front = []
      · subst hfront
        rw [List.nil_append, show ofDigits [d] = d by simp [ofDigits, ofDigitsAux],
          natDigits_of_lt hd]
      · have hlength := List.length_pos_iff.mpr hfront
        rw [List.head?_append_of_ne_nil _ hfront, List.length_append, List.length_singleton]
          at hhead
        have hnonzero := hhead (by omega)
        have hfront' := ih (fun e he => hds e (List.mem_append_left _ he)) hfront
          fun _ => hnonzero
        have hpos : 0 < ofDigits front := by
          rw [Nat.pos_iff_ne_zero]
          intro hzero
          rw [hzero, natDigits_of_lt (by norm_num)] at hfront'
          rw [← hfront'] at hnonzero
          exact hnonzero rfl
        rw [hvalue, natDigits_of_le (by omega),
          show (ofDigits front * 10 + d) / 10 = ofDigits front by omega,
          show (ofDigits front * 10 + d) % 10 = d by omega, hfront']

/-! ## Decimal texts -/

theorem map_digitUnits {ds : List ℕ} (h : ∀ d ∈ ds, d < 10) :
    (digitUnits ds).map (fun u => u.toNat - 0x30) = ds := by
  rw [digitUnits, List.map_map]
  refine (List.map_congr_left (g := id) fun d hd => ?_).trans (List.map_id ds)
  have := h d hd
  rw [Function.comp_apply, toNat_toUInt16 (by omega), id_eq]
  omega

/-- The digits of a text are the units of their values. -/
theorem digitUnits_map {s : JsString} (h : s.all isDigit = true) :
    digitUnits (s.map fun u => u.toNat - 0x30) = s := by
  rw [digitUnits, List.map_map]
  refine (List.map_congr_left (g := id) fun u hu => ?_).trans (List.map_id s)
  have := List.all_eq_true.mp h u hu
  simp only [isDigit, Bool.and_eq_true, decide_eq_true_eq, UInt16.le_iff_toNat_le] at this
  simp only [UInt16.reduceToNat] at this
  rw [Function.comp_apply, id_eq, ← UInt16.toNat_inj, toNat_toUInt16 (by omega)]
  omega

theorem all_isDigit_digitUnits {ds : List ℕ} (h : ∀ d ∈ ds, d < 10) :
    (digitUnits ds).all isDigit = true := by
  rw [digitUnits, List.all_map, List.all_eq_true]
  intro d hd
  have := h d hd
  rw [Function.comp_apply, isDigit, Bool.and_eq_true, decide_eq_true_eq, decide_eq_true_eq,
    UInt16.le_iff_toNat_le, UInt16.le_iff_toNat_le, toNat_toUInt16 (by omega)]
  simp only [UInt16.reduceToNat]
  omega

/-- The first unit of the text of a positive natural is a digit other than `0`. -/
theorem natToString_cons {n : ℕ} (hn : 0 < n) :
    ∃ u rest, natToString n = u :: rest ∧ u ≠ 0x30 ∧ isDigit u = true ∧
      rest.all isDigit = true := by
  obtain ⟨d, ds, hds, hd⟩ := natDigits_head hn
  have hlt : ∀ e ∈ d :: ds, e < 10 := by
    intro e he
    rw [← hds] at he
    exact lt_ten_of_mem_natDigits he
  have hall := all_isDigit_digitUnits hlt
  rw [digitUnits, List.map_cons, List.all_cons, Bool.and_eq_true] at hall
  have hten := hlt d List.mem_cons_self
  refine ⟨(0x30 + d).toUInt16, digitUnits ds, ?_, ?_, hall.1, hall.2⟩
  · rw [natToString, hds]
    rfl
  · rw [Ne, ← UInt16.toNat_inj, toNat_toUInt16 (by omega)]
    simp only [UInt16.reduceToNat]
    omega

theorem natToString_zero : natToString 0 = [0x30] := by decide

theorem length_natToString_le {n k : ℕ} (h : n < 10 ^ (k + 1)) :
    (natToString n).length ≤ k + 1 := by
  rw [natToString, digitUnits, List.length_map]
  exact length_natDigits_le h

/-! ## The shortest decimal of an integer -/

/-- **The shortest decimal of an integer is exact.**  The integer is itself among the candidates,
so no candidate with digits after the point comes before it. -/
theorem shortestDecimal_natCast {n : ℕ} (hn : 0 < n) (h : n < 2 ^ 53) :
    ∃ t : ℕ, (shortestDecimal n).2 = t ∧ (shortestDecimal n).1 * 10 ^ t = n := by
  have hround : roundBinary64 (n : ℚ) = ((n : ℤ) : ℚ) := by
    have hle : |(n : ℤ)| ≤ 2 ^ 53 := by
      rw [abs_of_nonneg (Int.natCast_nonneg n)]
      exact_mod_cast h.le
    exact_mod_cast JsNumber.roundBinary64_intCast hle
  have hsign : (n : ℚ).num.sign = 1 := Int.sign_eq_one_of_pos (by simpa using hn)
  have hlog : Int.log 10 |(n : ℚ)| = Nat.log 10 n := by
    rw [abs_of_nonneg (Nat.cast_nonneg n)]
    exact Int.log_natCast 10 n
  unfold shortestDecimal
  generalize hcandidates : ((List.range 17).flatMap fun i => decimalCandidates (n : ℚ) (i + 1))
    = candidates
  have hmem : ((n, 0) : ℕ × ℤ) ∈ candidates := by
    rw [← hcandidates, List.mem_flatMap]
    refine ⟨Nat.log 10 n, List.mem_range.mpr ?_, ?_⟩
    · exact Nat.log_lt_of_lt_pow hn.ne' (h.trans (by norm_num))
    · have hp : Int.log 10 |(n : ℚ)| + 1 - ((Nat.log 10 n + 1 : ℕ) : ℤ) = 0 := by
        rw [hlog]
        push_cast
        ring
      have hx : roundHalfEven (|(n : ℚ)| / 10 ^ (0 : ℤ)) = n := by
        rw [zpow_zero, div_one, abs_of_nonneg (Nat.cast_nonneg n)]
        exact_mod_cast roundHalfEven_intCast (n : ℤ)
      simp only [decimalCandidates, hp, hx, Int.toNat_natCast]
      exact List.mem_cons_self
  have horder : candidates.Pairwise fun a b => b.2 ≤ a.2 := by
    rw [← hcandidates, List.pairwise_flatMap]
    refine ⟨fun i _ => by simp [decimalCandidates], ?_⟩
    refine List.pairwise_lt_range.imp fun hlt x hx y hy => ?_
    simp only [decimalCandidates, List.mem_cons, List.not_mem_nil, or_false] at hx hy
    rcases hx with rfl | rfl | rfl <;> rcases hy with rfl | rfl | rfl <;> dsimp only <;> omega
  have hexact : decide (roundBinary64 (decimalValue (n : ℚ).num.sign n 0) = n) = true := by
    rw [hsign, decimalValue]
    simpa using hround
  cases hfind : candidates.find? fun c =>
      decide (roundBinary64 (decimalValue (n : ℚ).num.sign c.1 c.2) = n) with
  | none => exact absurd hexact (List.find?_eq_none.mp hfind (n, 0) hmem)
  | some c =>
      obtain ⟨hc, before, behind, rfl, hbefore⟩ := List.find?_eq_some_iff_append.mp hfind
      have hnonneg : 0 ≤ c.2 := by
        rcases List.mem_append.mp hmem with hmem | hmem
        · have := hbefore _ hmem
          rw [hexact] at this
          cases this
        · rcases List.mem_cons.mp hmem with rfl | hmem
          · exact le_refl _
          · exact List.rel_of_pairwise_cons (List.pairwise_append.mp horder).2.1 hmem
      obtain ⟨t, ht⟩ := Int.eq_ofNat_of_zero_le hnonneg
      refine ⟨t, ht, ?_⟩
      have hvalue : decimalValue (n : ℚ).num.sign c.1 c.2 = ((c.1 * 10 ^ t : ℕ) : ℤ) := by
        rw [hsign, decimalValue, ht]
        push_cast
        rw [zpow_natCast]
        ring
      rw [hvalue, decide_eq_true_eq] at hc
      have habs : |(n : ℤ)| < 2 ^ 53 := by
        rw [abs_of_nonneg (Int.natCast_nonneg n)]
        exact_mod_cast h
      have heq := JsNumber.intCast_eq_of_roundBinary64_eq habs hc
      rw [Option.getD_some]
      exact_mod_cast heq

/-- Zeros moved into the exponent stay a natural power of ten. -/
theorem stripZeros_natCast (fuel s t : ℕ) :
    ∃ t' : ℕ, (stripZeros fuel s t).2 = t' ∧ (stripZeros fuel s t).1 * 10 ^ t' = s * 10 ^ t := by
  induction fuel generalizing s t with
  | zero => exact ⟨t, rfl, rfl⟩
  | succ fuel ih =>
      rw [stripZeros]
      split_ifs with h
      · obtain ⟨t', ht', hvalue⟩ := ih (s / 10) (t + 1)
        refine ⟨t', by exact_mod_cast ht', ?_⟩
        rw [show ((t : ℤ) + 1) = ((t + 1 : ℕ) : ℤ) by push_cast; rfl, hvalue, pow_succ']
        rw [← mul_assoc, Nat.div_mul_cancel (Nat.dvd_of_mod_eq_zero h)]
      · exact ⟨t, rfl, rfl⟩

/-- **An integer is written with its digits.** -/
theorem numberToString_ofNat {n : ℕ} (h : n < 2 ^ 53) :
    numberToString (.ofNat n) = natToString n := by
  rw [JsNumber.ofNat_of_le h.le, numberToString, doubleToString]
  rcases Nat.eq_zero_or_pos n with rfl | hn
  · rw [if_pos (show (JsNumber.ofNatDouble 0 h.le).val = 0 from Nat.cast_zero)]
    decide
  · have hval : (JsNumber.ofNatDouble n h.le).val = n := rfl
    have hpos : (0 : ℚ) < n := Nat.cast_pos.mpr hn
    rw [hval, if_neg hpos.ne', if_neg (by exact not_lt.mpr hpos.le), List.nil_append]
    obtain ⟨t, ht, hshortest⟩ := shortestDecimal_natCast hn h
    obtain ⟨t', ht', hstripped⟩ := stripZeros_natCast (shortestDecimal n).1 (shortestDecimal n).1 t
    rw [hshortest, ← ht] at hstripped
    rw [← ht] at ht'
    dsimp only [decimalOf]
    generalize (stripZeros (shortestDecimal n).1 (shortestDecimal n).1 (shortestDecimal n).2) = c
      at ht' hstripped ⊢
    have hc : 0 < c.1 := by
      rw [Nat.pos_iff_ne_zero]
      intro hzero
      rw [hzero, zero_mul] at hstripped
      omega
    have hdigits := natDigits_mul_pow hc t'
    rw [hstripped] at hdigits
    have hlength : (natDigits n).length ≤ 16 :=
      length_natDigits_le (k := 15) (h.trans (by norm_num))
    rw [hdigits, List.length_append, List.length_replicate] at hlength
    rw [layout, ht', if_pos ⟨by omega, by omega⟩, natToString, hdigits, digitUnits, digitUnits,
      List.map_append, List.map_replicate]
    congr 2
    omega

end Json
end Xcs
