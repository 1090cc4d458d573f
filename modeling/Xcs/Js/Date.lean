import Xcs.Js.Text
import Xcs.Js.Number

/-!
# Dates

A time value counts the milliseconds since the beginning of 1970.  `wholeSecondTime` is the time
value of an ISO text without a fraction of a second, and `toISOString` writes a time value as an ISO
text.

Engines differ on a day past the end of its month, such as the thirtieth of February.  Here it is
carried over to the next month, and `toISOString` of the result is another text.
-/

namespace Xcs
namespace Js

/-! ## The calendar -/

/-- The days from the beginning of 1970 to a date.  A year is counted from the first of March, so
that the day a leap year adds is its last one. -/
def daysFromDate (year : ℤ) (month day : ℕ) : ℤ :=
  let y := if month ≤ 2 then year - 1 else year
  let monthOfYear : ℤ := if month ≤ 2 then month + 9 else month - 3
  let dayOfYear : ℤ := (153 * monthOfYear + 2) / 5 + day - 1
  let yearOfEra := y % 400
  let dayOfEra := yearOfEra * 365 + yearOfEra / 4 - yearOfEra / 100 + dayOfYear
  y / 400 * 146097 + dayOfEra - 719468

/-- The year, the month and the day of the month. -/
def dateFromDays (days : ℤ) : ℤ × ℕ × ℕ :=
  let z := days + 719468
  let dayOfEra := z % 146097
  let yearOfEra := (dayOfEra - dayOfEra / 1460 + dayOfEra / 36524 - dayOfEra / 146096) / 365
  let dayOfYear := dayOfEra - (365 * yearOfEra + yearOfEra / 4 - yearOfEra / 100)
  let monthOfYear := (5 * dayOfYear + 2) / 153
  let day := dayOfYear - (153 * monthOfYear + 2) / 5 + 1
  let month := if monthOfYear < 10 then monthOfYear + 3 else monthOfYear - 9
  let year := z / 146097 * 400 + yearOfEra
  (if month ≤ 2 then year + 1 else year, month.toNat, day.toNat)

/-! ## ISO texts -/

/-- The digits of a natural, in so many places at least. -/
def padDigits (places n : ℕ) : JsString :=
  let digits := (natDigits n).map fun d => (0x30 + d).toUInt16
  List.replicate (places - digits.length) 0x30 ++ digits

/-- The year of an ISO text: a sign and six digits where four do not suffice. -/
def isoYear (year : ℤ) : JsString :=
  if 0 ≤ year ∧ year ≤ 9999 then padDigits 4 year.toNat
  else (if year < 0 then 0x2d else 0x2b) :: padDigits 6 year.natAbs

/-- `Date.prototype.toISOString` -/
def toISOString (time : ℤ) : JsString :=
  let (year, month, day) := dateFromDays (time / 86400000)
  let timeOfDay := (time % 86400000).toNat
  isoYear year ++ 0x2d :: padDigits 2 month ++ 0x2d :: padDigits 2 day
    ++ 0x54 :: padDigits 2 (timeOfDay / 3600000)
    ++ 0x3a :: padDigits 2 (timeOfDay / 60000 % 60)
    ++ 0x3a :: padDigits 2 (timeOfDay / 1000 % 60)
    ++ 0x2e :: padDigits 3 (timeOfDay % 1000) ++ [0x5a]

/-- Whether a text has the units of a template, with any digit for a zero. -/
def matchesTemplate : JsString → JsString → Bool
  | [], [] => true
  | t :: template, u :: s =>
      (if t == 0x30 then isDigit u else u == t) && matchesTemplate template s
  | _, _ => false

/-- `/^\d{4}-\d{2}-\d{2}T\d{2}:\d{2}:\d{2}(?:\.000)?Z$/` -/
def isWholeSecondUtcIso (value : JsString) : Bool :=
  matchesTemplate (js "0000-00-00T00:00:00") (value.take 19)
    && (value.drop 19 == js "Z" || value.drop 19 == js ".000Z")

/-- The seconds from the beginning of 1970 to the time of such a text; `none` where a part is out of
range. -/
def isoSeconds (value : JsString) : Option ℤ :=
  let part (start places : ℕ) : ℕ :=
    ofDigits (((value.drop start).take places).map fun u => u.toNat - 0x30)
  let month := part 5 2
  let day := part 8 2
  let hour := part 11 2
  let minute := part 14 2
  let second := part 17 2
  if 1 ≤ month ∧ month ≤ 12 ∧ 1 ≤ day ∧ day ≤ 31 ∧ minute ≤ 59 ∧ second ≤ 59
      ∧ (hour ≤ 23 ∨ hour = 24 ∧ minute = 0 ∧ second = 0) then
    some (daysFromDate (part 0 4) month day * 86400 + hour * 3600 + minute * 60 + second)
  else none

/-- `new Date(value).getTime()` of a text that `isWholeSecondUtcIso` holds of; `none` is `NaN`. -/
def wholeSecondTime (value : JsString) : Option ℤ :=
  (isoSeconds value).map fun seconds => 1000 * seconds

example : (wholeSecondTime (js "2030-01-01T00:00:00Z")).map toISOString
    = some (js "2030-01-01T00:00:00.000Z") := by decide +kernel

example : (wholeSecondTime (js "2029-02-29T23:59:59Z")).map toISOString
    = some (js "2029-03-01T23:59:59.000Z") := by decide +kernel

end Js
end Xcs
