import Xcs.Js.Value

/-!
# Canonical JSON text

RFC 8785 prescribes one text for every JSON value: no whitespace, the members of an object sorted
by the UTF-16 code units of the key, strings escaped as `JSON.stringify` does, and numbers as
`Number::toString` writes them.  `render` writes a value whose members are already in order, so
the canonical text of `v` is `render v.canon`.

A lone surrogate is written as `\udXXX`, which is what `JSON.stringify` makes of it.
-/

namespace Xcs
namespace Json

open Js

/-! ## Strings -/

/-- `\uXXXX` with lowercase digits. -/
def hexEscape (u : CodeUnit) : JsString :=
  [0x5c, 0x75, hexDigit (u.toNat / 0x1000), hexDigit (u.toNat / 0x100 % 0x10),
    hexDigit (u.toNat / 0x10 % 0x10), hexDigit (u.toNat % 0x10)]

/-- A unit that is no surrogate, as `JSON.stringify` quotes it. -/
def escapeUnit (u : CodeUnit) : JsString :=
  if u == 0x22 then [0x5c, 0x22]
  else if u == 0x5c then [0x5c, 0x5c]
  else if u == 0x08 then [0x5c, 0x62]
  else if u == 0x09 then [0x5c, 0x74]
  else if u == 0x0a then [0x5c, 0x6e]
  else if u == 0x0c then [0x5c, 0x66]
  else if u == 0x0d then [0x5c, 0x72]
  else if u < 0x20 then hexEscape u
  else [u]

/-- The units of a string between its quotes. -/
def escapeUnits : JsString → JsString
  | [] => []
  | [u] => if isHighSurrogate u || isLowSurrogate u then hexEscape u else escapeUnit u
  | u :: v :: rest =>
      if isHighSurrogate u then
        if isLowSurrogate v then u :: v :: escapeUnits rest
        else hexEscape u ++ escapeUnits (v :: rest)
      else if isLowSurrogate u then hexEscape u ++ escapeUnits (v :: rest)
      else escapeUnit u ++ escapeUnits (v :: rest)

/-- A quoted string. -/
def quote (s : JsString) : JsString :=
  0x22 :: (escapeUnits s ++ [0x22])

/-! ## Numbers -/

/-- The units of a list of digits. -/
def digitUnits (ds : List ℕ) : JsString :=
  ds.map fun d => (0x30 + d).toUInt16

/-- A decimal natural. -/
def natToString (n : ℕ) : JsString :=
  digitUnits (natDigits n)

/-- `s · 10^p` with the trailing zeros of `s` moved into the exponent. -/
def stripZeros : ℕ → ℕ → ℤ → ℕ × ℤ
  | 0, s, p => (s, p)
  | fuel + 1, s, p => if s % 10 = 0 then stripZeros fuel (s / 10) (p + 1) else (s, p)

/-- The layout of `Number::toString` for the digits `ds` of a number `0.ds · 10^n`. -/
def layout (ds : List ℕ) (n : ℤ) : JsString :=
  let k := ds.length
  if k ≤ n ∧ n ≤ 21 then digitUnits ds ++ List.replicate (n - k).toNat 0x30
  else if 0 < n ∧ n ≤ 21 then
    digitUnits (ds.take n.toNat) ++ 0x2e :: digitUnits (ds.drop n.toNat)
  else if -6 < n ∧ n ≤ 0 then
    0x30 :: 0x2e :: (List.replicate (-n).toNat 0x30 ++ digitUnits ds)
  else
    digitUnits (ds.take 1)
      ++ (if k = 1 then [] else 0x2e :: digitUnits (ds.drop 1))
      ++ 0x65 :: (if n - 1 < 0 then 0x2d else 0x2b) :: natToString (n - 1).natAbs

/-- The decimal the digits of a number are taken from. -/
def decimalOf (q : ℚ) : ℕ × ℤ :=
  let c := shortestDecimal q
  stripZeros c.1 c.1 c.2

/-- `Number::toString` of a finite number. -/
def doubleToString (d : Double) : JsString :=
  if d.val = 0 then js "0"
  else
    let c := decimalOf d.val
    let ds := natDigits c.1
    (if d.val < 0 then [0x2d] else []) ++ layout ds (ds.length + c.2)

/-- `JSON.stringify` of a number. -/
def numberToString : JsNumber → JsString
  | .finite d => doubleToString d
  | .negZero => js "0"
  | _ => js "null"

/-! ## Values -/

mutual

/-- The text of a value with its members in the order they have. -/
def render : JsValue → JsString
  | .undefined => []
  | .null => js "null"
  | .bool true => js "true"
  | .bool false => js "false"
  | .num n => numberToString n
  | .str s => quote s
  | .arr [] => [0x5b, 0x5d]
  | .arr (v :: items) => 0x5b :: (render v ++ renderItems items)
  | .obj [] => [0x7b, 0x7d]
  | .obj ((k, v) :: members) => 0x7b :: (quote k ++ 0x3a :: (render v ++ renderMembers members))

/-- The items of an array after the first one. -/
def renderItems : List JsValue → JsString
  | [] => [0x5d]
  | v :: items => 0x2c :: (render v ++ renderItems items)

/-- The members of an object after the first one. -/
def renderMembers : Members → JsString
  | [] => [0x7d]
  | (k, v) :: members => 0x2c :: (quote k ++ 0x3a :: (render v ++ renderMembers members))

end

/-- The canonical text of a JSON value. -/
def canonicalText (v : JsValue) : JsString :=
  render v.canon

theorem canonicalText_eq_of_canon_eq {v w : JsValue} (h : v.canon = w.canon) :
    canonicalText v = canonicalText w := by
  rw [canonicalText, h, canonicalText]

end Json
end Xcs
