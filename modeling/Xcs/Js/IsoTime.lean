import Xcs.Js.Date
import Xcs.Json.Integers
import Xcs.Json.RoundTrip

/-!
# Texts of time values

`toISOString` writes a time value, and `isoTime` reads what it wrote: a text is read as the time
value whose text it is.

* `daysFromDate_dateFromDays`: the calendar is exact.
* `isoTime_toISOString`: the text of every time value reads back.
-/

namespace Xcs
namespace Js

open Json

/-- The greatest time value: a hundred million days. -/
def maxTime : ℤ := 8640000000000000

/-- The integers that are time values. -/
def isTimeValue (time : ℤ) : Bool :=
  decide (-maxTime ≤ time ∧ time ≤ maxTime)

theorem isTimeValue_iff {time : ℤ} :
    isTimeValue time = true ↔ -8640000000000000 ≤ time ∧ time ≤ 8640000000000000 := by
  rw [isTimeValue, decide_eq_true_eq]
  rfl

/-! ## The calendar -/

/-- The year of an era of 146097 days, and the day of that year.  A century has 36524 days, and the
era one more. -/
theorem yearOfEra_bounds {d y : ℤ} (h : 0 ≤ d ∧ d < 146097)
    (hy : y = (d - d / 1460 + d / 36524 - d / 146096) / 365) :
    (0 ≤ y ∧ y ≤ 399) ∧ 0 ≤ d - (365 * y + y / 4 - y / 100) ∧
      d - (365 * y + y / 4 - y / 100) ≤ 365 := by
  by_cases hlast : d = 146096
  · subst hlast
    norm_num at hy
    subst hy
    norm_num
  · obtain ⟨c, hc⟩ : ∃ c, c = d / 36524 := ⟨_, rfl⟩
    obtain ⟨r, hr⟩ : ∃ r, r = d - 36524 * c := ⟨_, rfl⟩
    obtain ⟨k, hk⟩ : ∃ k, k = (24 * c + r) / 1460 := ⟨_, rfl⟩
    obtain ⟨m, hm⟩ : ∃ m, m = (r - k) / 365 := ⟨_, rfl⟩
    have hrange : 0 ≤ c ∧ c ≤ 3 ∧ 0 ≤ r ∧ r < 36524 := by omega
    have hquads : d / 1460 = 25 * c + k := by omega
    have hera : d / 146096 = 0 := by omega
    have hyear : y = 100 * c + m := by
      rw [hy, hquads, hera, ← hc, show d - (25 * c + k) + c - 0 = r - k + 100 * c * 365 by omega,
        Int.add_mul_ediv_right _ _ (by norm_num)]
      omega
    have hcentury : 0 ≤ m ∧ m ≤ 99 := by omega
    have hleap : y / 4 = 25 * c + m / 4 := by omega
    have hnoleap : y / 100 = c := by omega
    have hlow : m / 4 ≤ k := by omega
    have hhigh : k ≤ m / 4 + 1 := by omega
    omega

/-- What the calendar computes of a day: the year of an era, counted from March, the day of that
year and its month. -/
theorem dateFromDays_eq (days : ℤ) :
    ∃ era y doy mp : ℤ, (0 ≤ y ∧ y ≤ 399) ∧ (0 ≤ doy ∧ doy ≤ 365) ∧ mp = (5 * doy + 2) / 153 ∧
      days + 719468 = era * 146097 + (365 * y + y / 4 - y / 100 + doy) ∧
      dateFromDays days =
        (if (if mp < 10 then mp + 3 else mp - 9) ≤ 2 then era * 400 + y + 1 else era * 400 + y,
          (if mp < 10 then mp + 3 else mp - 9).toNat, (doy - (153 * mp + 2) / 5 + 1).toNat) := by
  have hrange : 0 ≤ (days + 719468) % 146097 ∧ (days + 719468) % 146097 < 146097 := by omega
  obtain ⟨hyear, hday⟩ := yearOfEra_bounds hrange rfl
  refine ⟨(days + 719468) / 146097, _, _, _, hyear, hday, rfl, ?_, rfl⟩
  omega

theorem dateFromDays_bounds (days : ℤ) :
    (1 ≤ (dateFromDays days).2.1 ∧ (dateFromDays days).2.1 ≤ 12) ∧
      1 ≤ (dateFromDays days).2.2 ∧ (dateFromDays days).2.2 ≤ 31 := by
  obtain ⟨era, y, doy, mp, -, hdoy, hmp, -, hdate⟩ := dateFromDays_eq days
  rw [hdate]
  dsimp only
  split_ifs <;> omega

/-- The year of a day within a hundred million of 1970. -/
theorem year_bounds {days : ℤ} (h : -100000000 ≤ days ∧ days ≤ 100000000) :
    -999999 ≤ (dateFromDays days).1 ∧ (dateFromDays days).1 ≤ 999999 := by
  obtain ⟨era, y, doy, mp, hy, hdoy, -, hdays, hdate⟩ := dateFromDays_eq days
  rw [hdate]
  dsimp only
  split_ifs <;> omega

/-- **The calendar is exact.** -/
theorem daysFromDate_dateFromDays (days : ℤ) :
    daysFromDate (dateFromDays days).1 (dateFromDays days).2.1 (dateFromDays days).2.2 = days := by
  obtain ⟨era, y, doy, mp, hy, hdoy, hmp, hdays, hdate⟩ := dateFromDays_eq days
  have hmonths : 0 ≤ mp ∧ mp ≤ 11 := by omega
  have hday : 0 ≤ doy - (153 * mp + 2) / 5 := by omega
  rw [hdate]
  unfold daysFromDate
  dsimp only
  by_cases hten : mp < 10
  · have hmonth : ¬(mp + 3).toNat ≤ 2 := by omega
    have hlate : ¬mp + 3 ≤ 2 := by omega
    rw [if_pos hten, if_neg hlate, if_neg hmonth, if_neg hmonth]
    omega
  · have hmonth : (mp - 9).toNat ≤ 2 := by omega
    have hearly : mp - 9 ≤ 2 := by omega
    rw [if_neg hten, if_pos hearly, if_pos hmonth, if_pos hmonth]
    omega

/-! ## The text -/

theorem length_padDigits {places n : ℕ} (h : n < 10 ^ (places + 1)) :
    (padDigits (places + 1) n).length = places + 1 := by
  have hle := length_natDigits_le h
  rw [padDigits, List.length_append, List.length_replicate, List.length_map]
  omega

/-- Digits with zeros in front of them denote the same natural. -/
theorem ofDigits_padDigits (places n : ℕ) :
    ofDigits ((padDigits places n).map fun u => u.toNat - 0x30) = n := by
  have hdigits : ((natDigits n).map fun d => (0x30 + d).toUInt16).map (fun u => u.toNat - 0x30)
      = natDigits n :=
    map_digitUnits fun d hd => lt_ten_of_mem_natDigits hd
  unfold padDigits
  dsimp only
  rw [List.map_append, hdigits, List.map_replicate, ofDigits_append]
  have hzero : ofDigits (List.replicate
      (places - ((natDigits n).map fun d => (0x30 + d).toUInt16).length)
      ((0x30 : CodeUnit).toNat - 0x30)) = 0 :=
    ofDigits_replicate_zero _
  rw [hzero, Nat.zero_mul, Nat.zero_add, ofDigits_natDigits]

/-- The natural that the digits at a place of a text denote. -/
def digitsAt (s : JsString) (start places : ℕ) : ℕ :=
  ofDigits (((s.drop start).take places).map fun u => u.toNat - 0x30)

/-- The year of a text in the form of `toISOString`, and the text after it. -/
def splitYear : JsString → ℤ × JsString
  | [] => (0, [])
  | u :: rest =>
      if u == 0x2d then (-(digitsAt rest 0 6 : ℤ), rest.drop 6)
      else if u == 0x2b then (digitsAt rest 0 6, rest.drop 6)
      else (digitsAt (u :: rest) 0 4, (u :: rest).drop 4)

/-- The milliseconds that the fields of such a text denote. -/
def isoFields (s : JsString) : ℤ :=
  let (year, rest) := splitYear s
  daysFromDate year (digitsAt rest 1 2) (digitsAt rest 4 2) * 86400000
    + digitsAt rest 7 2 * 3600000 + digitsAt rest 10 2 * 60000 + digitsAt rest 13 2 * 1000
    + digitsAt rest 16 3

/-- The time value a text is the text of. -/
def isoTime (s : JsString) : Option ℤ :=
  if isTimeValue (isoFields s) && toISOString (isoFields s) == s then some (isoFields s) else none

theorem isDigit_of_mem_padDigits {places n : ℕ} {u : CodeUnit} (h : u ∈ padDigits places n) :
    isDigit u = true := by
  rw [padDigits, List.mem_append] at h
  rcases h with h | h
  · rw [List.eq_of_mem_replicate h]
    rfl
  · exact List.all_eq_true.mp (all_isDigit_digitUnits fun d hd => lt_ten_of_mem_natDigits hd) u h

/-- Padded digits, taken off the front of a text. -/
theorem digitsAt_padDigits {places n : ℕ} (h : n < 10 ^ (places + 1)) (rest : JsString) :
    digitsAt (padDigits (places + 1) n ++ rest) 0 (places + 1) = n ∧
      (padDigits (places + 1) n ++ rest).drop (places + 1) = rest := by
  have htake : (padDigits (places + 1) n ++ rest).take (places + 1) = padDigits (places + 1) n :=
    List.take_left' (length_padDigits h)
  rw [digitsAt, List.drop_zero, htake, ofDigits_padDigits]
  exact ⟨rfl, List.drop_left' (length_padDigits h)⟩

/-- Two digits of a field of a date. -/
theorem exists_twoDigits {n : ℕ} (h : n < 100) :
    ∃ u v, padDigits 2 n = [u, v] ∧ ofDigits ([u, v].map fun u => u.toNat - 0x30) = n := by
  obtain ⟨u, v, huv⟩ := List.length_eq_two.mp (length_padDigits (show n < 10 ^ (1 + 1) from h))
  exact ⟨u, v, huv, huv ▸ ofDigits_padDigits 2 n⟩

/-- Three digits of a field of a date. -/
theorem exists_threeDigits {n : ℕ} (h : n < 1000) :
    ∃ u v w, padDigits 3 n = [u, v, w] ∧
      ofDigits ([u, v, w].map fun u => u.toNat - 0x30) = n := by
  obtain ⟨u, v, w, huvw⟩ :=
    List.length_eq_three.mp (length_padDigits (show n < 10 ^ (2 + 1) from h))
  exact ⟨u, v, w, huvw, huvw ▸ ofDigits_padDigits 3 n⟩

theorem splitYear_isoYear {year : ℤ} (h : -999999 ≤ year ∧ year ≤ 999999) (rest : JsString) :
    splitYear (isoYear year ++ rest) = (year, rest) := by
  unfold isoYear
  by_cases hfour : 0 ≤ year ∧ year ≤ 9999
  · have hbound : year.toNat < 10 ^ (3 + 1) := by omega
    obtain ⟨hvalue, hrest⟩ := digitsAt_padDigits hbound rest
    obtain ⟨u, us, htext⟩ := List.exists_cons_of_length_eq_add_one (length_padDigits hbound)
    have hdigit : isDigit u = true :=
      isDigit_of_mem_padDigits (htext ▸ List.mem_cons_self : u ∈ padDigits 4 year.toNat)
    have hminus : (u == 0x2d) = false := by
      by_contra hu
      rw [Bool.not_eq_false, beq_iff_eq] at hu
      rw [hu] at hdigit
      cases hdigit
    have hplus : (u == 0x2b) = false := by
      by_contra hu
      rw [Bool.not_eq_false, beq_iff_eq] at hu
      rw [hu] at hdigit
      cases hdigit
    rw [if_pos hfour]
    rw [htext] at hvalue hrest ⊢
    rw [List.cons_append] at hvalue hrest ⊢
    rw [splitYear, hminus, hplus]
    show ((digitsAt (u :: (us ++ rest)) 0 4 : ℤ), (u :: (us ++ rest)).drop 4) = (year, rest)
    rw [hvalue, hrest, Int.toNat_of_nonneg hfour.1]
  · have hbound : year.natAbs < 10 ^ (5 + 1) := by omega
    obtain ⟨hvalue, hrest⟩ := digitsAt_padDigits hbound rest
    rw [if_neg hfour, List.cons_append]
    by_cases hsign : year < 0
    · rw [if_pos hsign]
      show (-(digitsAt (padDigits 6 year.natAbs ++ rest) 0 6 : ℤ),
        (padDigits 6 year.natAbs ++ rest).drop 6) = (year, rest)
      rw [hvalue, hrest, Int.ofNat_natAbs_of_nonpos (by omega), Int.neg_neg]
    · rw [if_neg hsign]
      show ((digitsAt (padDigits 6 year.natAbs ++ rest) 0 6 : ℤ),
        (padDigits 6 year.natAbs ++ rest).drop 6) = (year, rest)
      rw [hvalue, hrest, Int.natAbs_of_nonneg (by omega)]

theorem isoFields_toISOString {time : ℤ} (h : isTimeValue time = true) :
    isoFields (toISOString time) = time := by
  rw [isTimeValue_iff] at h
  obtain ⟨⟨hmonth, hmonth'⟩, hday, hday'⟩ := dateFromDays_bounds (time / 86400000)
  have hyear := @year_bounds (time / 86400000) (by omega)
  have hcalendar := daysFromDate_dateFromDays (time / 86400000)
  obtain ⟨a, a', ha, hmonths⟩ := @exists_twoDigits (dateFromDays (time / 86400000)).2.1 (by omega)
  obtain ⟨b, b', hb, hdays⟩ := @exists_twoDigits (dateFromDays (time / 86400000)).2.2 (by omega)
  obtain ⟨c, c', hc, hhours⟩ := @exists_twoDigits ((time % 86400000).toNat / 3600000) (by omega)
  obtain ⟨d, d', hd, hminutes⟩ :=
    @exists_twoDigits ((time % 86400000).toNat / 60000 % 60) (by omega)
  obtain ⟨e, e', he, hseconds⟩ :=
    @exists_twoDigits ((time % 86400000).toNat / 1000 % 60) (by omega)
  obtain ⟨f, f', f'', hf, hmilliseconds⟩ :=
    @exists_threeDigits ((time % 86400000).toNat % 1000) (by omega)
  unfold toISOString isoFields
  dsimp only
  simp only [ha, hb, hc, hd, he, hf, List.append_assoc, splitYear_isoYear hyear]
  -- The separators stand at fixed places, so every field is where it is read.
  show daysFromDate _ (ofDigits ([a, a'].map _)) (ofDigits ([b, b'].map _)) * 86400000
    + (ofDigits ([c, c'].map _) : ℕ) * 3600000 + (ofDigits ([d, d'].map _) : ℕ) * 60000
    + (ofDigits ([e, e'].map _) : ℕ) * 1000 + (ofDigits ([f, f', f''].map _) : ℕ) = time
  rw [hmonths, hdays, hhours, hminutes, hseconds, hmilliseconds, hcalendar]
  omega

/-- **The text of a time value reads back.** -/
theorem isoTime_toISOString {time : ℤ} (h : isTimeValue time = true) :
    isoTime (toISOString time) = some time := by
  rw [isoTime, isoFields_toISOString h, h, Bool.true_and, if_pos (beq_self_eq_true _)]

end Js
end Xcs
