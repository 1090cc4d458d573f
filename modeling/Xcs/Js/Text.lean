import Mathlib.Data.List.Basic

/-!
# JavaScript strings

A JavaScript string is a sequence of 16-bit code units, not of characters: nothing stops a
program from holding half of a surrogate pair.  Everything the protocol hashes or stores goes
through UTF-8, where such a half has no encoding, so the library keeps the two views apart.

* `JsString` is the sequence of code units, `isWellFormed` says that every surrogate is paired.
* `encodeUtf8` is `TextEncoder.encode`: a lone surrogate is replaced by U+FFFD.
* `decodeUtf8` is `TextDecoder.decode` with `fatal: true` and `ignoreBOM: true`: `none` on any
  byte sequence that RFC 3629 does not derive, and a leading byte order mark stays visible.
* `hexToBytes` reads an even run of hexadecimal digits of either case, `bytesToHex` writes
  lowercase ones.
* `trim` removes white space at both ends.
-/

namespace Xcs
namespace Js

/-- One code unit of a JavaScript string. -/
abbrev CodeUnit := UInt16

/-- A JavaScript string: code units, whether or not they pair up to code points. -/
abbrev JsString := List CodeUnit

instance : LawfulBEq JsString :=
  inferInstanceAs (LawfulBEq (List UInt16))

/-- The string an ASCII literal of the source denotes. -/
def js (s : String) : JsString :=
  s.toList.map fun c => c.toNat.toUInt16

/-- `[A-Z]` -/
def isUpper (u : CodeUnit) : Bool := 0x41 ≤ u && u ≤ 0x5a

/-- `[a-z]` -/
def isLower (u : CodeUnit) : Bool := 0x61 ≤ u && u ≤ 0x7a

/-- `[0-9]` -/
def isDigit (u : CodeUnit) : Bool := 0x30 ≤ u && u ≤ 0x39

/-! ## Surrogates -/

/-- The code units `0xd800`–`0xdbff`, which open a surrogate pair. -/
def isHighSurrogate (u : CodeUnit) : Bool :=
  0xd800 ≤ u && u ≤ 0xdbff

/-- The code units `0xdc00`–`0xdfff`, which close a surrogate pair. -/
def isLowSurrogate (u : CodeUnit) : Bool :=
  0xdc00 ≤ u && u ≤ 0xdfff

/-- `String.prototype.isWellFormed`: every surrogate belongs to a pair. -/
def isWellFormed : JsString → Bool
  | [] => true
  | [u] => !isHighSurrogate u && !isLowSurrogate u
  | u :: v :: rest =>
      if isHighSurrogate u then isLowSurrogate v && isWellFormed rest
      else !isLowSurrogate u && isWellFormed (v :: rest)

@[simp] theorem isWellFormed_nil : isWellFormed [] = true := rfl

/-- A unit that is no high surrogate is judged alone. -/
theorem isWellFormed_cons_of_not_high {u : CodeUnit} (h : isHighSurrogate u = false)
    (rest : JsString) : isWellFormed (u :: rest) = (!isLowSurrogate u && isWellFormed rest) := by
  cases rest with
  | nil => simp [isWellFormed, h]
  | cons v rest => simp [isWellFormed, h]

/-- A string without surrogates is well formed. -/
theorem isWellFormed_of_forall_not_surrogate : ∀ {s : JsString},
    (∀ u ∈ s, isHighSurrogate u = false ∧ isLowSurrogate u = false) → isWellFormed s = true
  | [], _ => rfl
  | u :: rest, h => by
      have hu := h u (List.mem_cons_self ..)
      rw [isWellFormed_cons_of_not_high hu.1, hu.2]
      simpa using isWellFormed_of_forall_not_surrogate fun v hv =>
        h v (List.mem_cons_of_mem _ hv)

/-- `String.prototype.toWellFormed`, which is what encoding to UTF-8 makes of a string: every lone
surrogate becomes U+FFFD. -/
def toWellFormed : JsString → JsString
  | [] => []
  | [u] => if isHighSurrogate u || isLowSurrogate u then [0xfffd] else [u]
  | u :: v :: rest =>
      if isHighSurrogate u then
        if isLowSurrogate v then u :: v :: toWellFormed rest
        else 0xfffd :: toWellFormed (v :: rest)
      else if isLowSurrogate u then 0xfffd :: toWellFormed (v :: rest)
      else u :: toWellFormed (v :: rest)

/-- A well-formed string stays as it is. -/
theorem toWellFormed_of_isWellFormed {s : JsString} (h : isWellFormed s = true) :
    toWellFormed s = s := by
  fun_induction toWellFormed s with
  | case1 => rfl
  | case2 u hu =>
      rw [isWellFormed, Bool.and_eq_true, Bool.not_eq_true', Bool.not_eq_true'] at h
      rw [h.1, h.2] at hu
      cases hu
  | case3 u hu => rfl
  | case4 u v rest hu hv ih =>
      rw [isWellFormed, if_pos hu, Bool.and_eq_true] at h
      rw [ih h.2]
  | case5 u v rest hu hv ih =>
      rw [isWellFormed, if_pos hu, Bool.and_eq_true] at h
      exact absurd h.1 hv
  | case6 u v rest hu hv ih =>
      rw [isWellFormed, if_neg hu, hv] at h
      cases h
  | case7 u v rest hu hv ih =>
      rw [isWellFormed, if_neg hu, Bool.and_eq_true] at h
      rw [ih h.2]

/-- Whatever a string is made of, what encoding makes of it is well formed. -/
theorem isWellFormed_toWellFormed (s : JsString) : isWellFormed (toWellFormed s) = true := by
  have hreplaced : ∀ {rest : JsString}, isWellFormed rest = true →
      isWellFormed (0xfffd :: rest) = true := by
    intro rest hrest
    rw [isWellFormed_cons_of_not_high (by decide), hrest]
    rfl
  fun_induction toWellFormed s with
  | case1 => rfl
  | case2 u hu => rfl
  | case3 u hu =>
      rw [Bool.not_eq_true, Bool.or_eq_false_iff] at hu
      rw [isWellFormed, hu.1, hu.2]
      rfl
  | case4 u v rest hu hv ih =>
      rw [isWellFormed, if_pos hu, hv, ih]
      rfl
  | case5 u v rest hu hv ih => exact hreplaced ih
  | case6 u v rest hu hlow ih => exact hreplaced ih
  | case7 u v rest hu hlow ih =>
      rw [Bool.not_eq_true] at hu hlow
      rw [isWellFormed_cons_of_not_high hu, hlow, ih]
      rfl

/-! ## UTF-8 -/

/-- A byte `10xxxxxx`. -/
def isContinuation (b : UInt8) : Bool :=
  0x80 ≤ b && b ≤ 0xbf

/-- The six payload bits of a continuation byte. -/
def continuationBits (b : UInt8) : Nat :=
  b.toNat % 0x40

/-- The code units of a code point. -/
def encodeUtf16 (c : Nat) : JsString :=
  if c < 0x10000 then [c.toUInt16]
  else [(0xd800 + (c - 0x10000) / 0x400).toUInt16, (0xdc00 + (c - 0x10000) % 0x400).toUInt16]

/-- The bytes of a code point. -/
def encodeCodePoint (c : Nat) : List UInt8 :=
  if c < 0x80 then [c.toUInt8]
  else if c < 0x800 then [(0xc0 + c / 0x40).toUInt8, (0x80 + c % 0x40).toUInt8]
  else if c < 0x10000 then
    [(0xe0 + c / 0x1000).toUInt8, (0x80 + c / 0x40 % 0x40).toUInt8, (0x80 + c % 0x40).toUInt8]
  else
    [(0xf0 + c / 0x40000).toUInt8, (0x80 + c / 0x1000 % 0x40).toUInt8,
      (0x80 + c / 0x40 % 0x40).toUInt8, (0x80 + c % 0x40).toUInt8]

/-- The code points of a string, with U+FFFD for a lone surrogate. -/
def codePoints : JsString → List Nat
  | [] => []
  | [u] => if isHighSurrogate u || isLowSurrogate u then [0xfffd] else [u.toNat]
  | u :: v :: rest =>
      if isHighSurrogate u then
        if isLowSurrogate v then
          (0x10000 + (u.toNat - 0xd800) * 0x400 + (v.toNat - 0xdc00)) :: codePoints rest
        else 0xfffd :: codePoints (v :: rest)
      else if isLowSurrogate u then 0xfffd :: codePoints (v :: rest)
      else u.toNat :: codePoints (v :: rest)

/-- `new TextEncoder().encode`. -/
def encodeUtf8 (s : JsString) : List UInt8 :=
  (codePoints s).flatMap encodeCodePoint

/-- `new TextDecoder('utf-8', { fatal: true, ignoreBOM: true }).decode`; the second byte of a
three- or four-byte form is bounded as in RFC 3629, which excludes overlong forms, surrogates
and code points above U+10FFFF. -/
def decodeUtf8 : List UInt8 → Option JsString
  | [] => some []
  | a :: rest =>
      if a < 0x80 then (decodeUtf8 rest).map (a.toUInt16 :: ·)
      else if 0xc2 ≤ a && a ≤ 0xdf then
        match rest with
        | b :: rest =>
            if isContinuation b then
              (decodeUtf8 rest).map
                (encodeUtf16 ((a.toNat - 0xc0) * 0x40 + continuationBits b) ++ ·)
            else none
        | _ => none
      else if 0xe0 ≤ a && a ≤ 0xef then
        match rest with
        | b :: c :: rest =>
            if isContinuation b && isContinuation c && (a != 0xe0 || 0xa0 ≤ b)
                && (a != 0xed || b ≤ 0x9f) then
              (decodeUtf8 rest).map
                (encodeUtf16 ((a.toNat - 0xe0) * 0x1000 + continuationBits b * 0x40
                  + continuationBits c) ++ ·)
            else none
        | _ => none
      else if 0xf0 ≤ a && a ≤ 0xf4 then
        match rest with
        | b :: c :: d :: rest =>
            if isContinuation b && isContinuation c && isContinuation d
                && (a != 0xf0 || 0x90 ≤ b) && (a != 0xf4 || b ≤ 0x8f) then
              (decodeUtf8 rest).map
                (encodeUtf16 ((a.toNat - 0xf0) * 0x40000 + continuationBits b * 0x1000
                  + continuationBits c * 0x40 + continuationBits d) ++ ·)
            else none
        | _ => none
      else none

/-! ## Hexadecimal -/

/-- The value of a hexadecimal digit of either case. -/
def hexValue (u : CodeUnit) : Option Nat :=
  if 0x30 ≤ u && u ≤ 0x39 then some (u.toNat - 0x30)
  else if 0x41 ≤ u && u ≤ 0x46 then some (u.toNat - 0x41 + 10)
  else if 0x61 ≤ u && u ≤ 0x66 then some (u.toNat - 0x61 + 10)
  else none

/-- The lowercase digit of a value below sixteen. -/
def hexDigit (n : Nat) : CodeUnit :=
  if n < 10 then (0x30 + n).toUInt16 else (0x61 + (n - 10)).toUInt16

/-- `Buffer.from(value, 'hex')` on an even run of digits; `none` where a digit is missing or
is not one. -/
def hexToBytes : JsString → Option (List UInt8)
  | [] => some []
  | [_] => none
  | a :: b :: rest =>
      match hexValue a, hexValue b, hexToBytes rest with
      | some x, some y, some bytes => some ((x * 16 + y).toUInt8 :: bytes)
      | _, _, _ => none

/-- `bytesToHex`: two lowercase digits a byte. -/
def bytesToHex (bytes : List UInt8) : JsString :=
  bytes.flatMap fun b => [hexDigit (b.toNat / 16), hexDigit (b.toNat % 16)]

/-- `/^[0-9a-f]$/` -/
def isLowerHexDigit (u : CodeUnit) : Bool :=
  (0x30 ≤ u && u ≤ 0x39) || (0x61 ≤ u && u ≤ 0x66)

/-- `/^[0-9a-fA-F]$/` -/
def isHexDigit (u : CodeUnit) : Bool :=
  isLowerHexDigit u || (0x41 ≤ u && u ≤ 0x46)

/-- `/^[0-9a-f]{64}$/` -/
def isLowerHash (s : JsString) : Bool :=
  s.length == 64 && s.all isLowerHexDigit

/-- `/^[0-9a-fA-F]{64}$/` -/
def isHash (s : JsString) : Bool :=
  s.length == 64 && s.all isHexDigit

/-- `String.prototype.toLowerCase` on a string of ASCII code units. -/
def toLowerCase (s : JsString) : JsString :=
  s.map fun u => if 0x41 ≤ u && u ≤ 0x5a then u + 0x20 else u

/-- `String.prototype.toUpperCase` on a string of ASCII code units. -/
def toUpperCase (s : JsString) : JsString :=
  s.map fun u => if 0x61 ≤ u && u ≤ 0x7a then u - 0x20 else u

/-- A lowercase digit is a digit. -/
theorem isHexDigit_of_isLowerHexDigit {u : CodeUnit} (h : isLowerHexDigit u = true) :
    isHexDigit u = true := by
  rw [isHexDigit, h, Bool.true_or]

theorem isHash_of_isLowerHash {s : JsString} (h : isLowerHash s = true) : isHash s = true := by
  rw [isLowerHash, Bool.and_eq_true, List.all_eq_true] at h
  rw [isHash, Bool.and_eq_true, List.all_eq_true]
  exact ⟨h.1, fun u hu => isHexDigit_of_isLowerHexDigit (h.2 u hu)⟩

/-- The lowercase form of a hash is a lowercase hash. -/
theorem isLowerHash_toLowerCase {s : JsString} (h : isHash s = true) :
    isLowerHash (toLowerCase s) = true := by
  rw [isHash, Bool.and_eq_true, List.all_eq_true] at h
  rw [isLowerHash, Bool.and_eq_true, List.all_eq_true, toLowerCase, List.length_map]
  refine ⟨h.1, fun u hu => ?_⟩
  obtain ⟨v, hv, rfl⟩ := List.mem_map.mp hu
  have hdigit := h.2 v hv
  simp only [isHexDigit, isLowerHexDigit, Bool.or_eq_true, Bool.and_eq_true, decide_eq_true_eq,
    UInt16.le_iff_toNat_le, UInt16.reduceToNat] at hdigit ⊢
  split_ifs with hupper
  · rw [UInt16.toNat_add]
    simp only [UInt16.reduceToNat]
    omega
  · omega

/-- A lowercase hash is its own lowercase form. -/
theorem toLowerCase_of_isLowerHash {s : JsString} (h : isLowerHash s = true) :
    toLowerCase s = s := by
  rw [isLowerHash, Bool.and_eq_true, List.all_eq_true] at h
  rw [toLowerCase]
  refine (List.map_congr_left fun u hu => if_neg ?_).trans (List.map_id s)
  have hdigit := h.2 u hu
  simp only [isLowerHexDigit, Bool.or_eq_true, Bool.and_eq_true, decide_eq_true_eq,
    UInt16.le_iff_toNat_le, UInt16.reduceToNat] at hdigit ⊢
  omega

theorem toUpperCase_toUpperCase (s : JsString) : toUpperCase (toUpperCase s) = toUpperCase s := by
  rw [toUpperCase, toUpperCase, List.map_map]
  refine List.map_congr_left fun u _ => ?_
  rw [Function.comp_apply]
  simp only [Bool.and_eq_true, decide_eq_true_eq, UInt16.le_iff_toNat_le, UInt16.reduceToNat]
  by_cases h : 97 ≤ u.toNat ∧ u.toNat ≤ 122
  · rw [if_pos h, if_neg]
    rw [UInt16.toNat_sub_of_le _ _ (UInt16.le_iff_toNat_le.mpr (by
      simp only [UInt16.reduceToNat]
      omega))]
    simp only [UInt16.reduceToNat]
    omega
  · rw [if_neg h, if_neg h]

theorem toLowerCase_toUpperCase (s : JsString) : toLowerCase (toUpperCase s) = toLowerCase s := by
  rw [toLowerCase, toUpperCase, List.map_map, toLowerCase]
  refine List.map_congr_left fun u _ => ?_
  rw [Function.comp_apply]
  simp only [Bool.and_eq_true, decide_eq_true_eq, UInt16.le_iff_toNat_le, UInt16.reduceToNat]
  by_cases h : 97 ≤ u.toNat ∧ u.toNat ≤ 122
  · have hle : (0x20 : CodeUnit) ≤ u := UInt16.le_iff_toNat_le.mpr (by
      simp only [UInt16.reduceToNat]
      omega)
    have hsub : (u - 0x20).toNat = u.toNat - 32 := UInt16.toNat_sub_of_le _ _ hle
    rw [if_pos h, if_pos (by omega), if_neg (by omega), UInt16.sub_add_cancel]
  · rw [if_neg h]

/-- Texts with the same lowercase form have the same uppercase form. -/
theorem toUpperCase_toLowerCase (s : JsString) : toUpperCase (toLowerCase s) = toUpperCase s := by
  rw [toLowerCase, toUpperCase, List.map_map, toUpperCase]
  refine List.map_congr_left fun u _ => ?_
  rw [Function.comp_apply]
  simp only [Bool.and_eq_true, decide_eq_true_eq, UInt16.le_iff_toNat_le, UInt16.reduceToNat]
  by_cases h : 65 ≤ u.toNat ∧ u.toNat ≤ 90
  · have hadd : (u + 0x20).toNat = u.toNat + 32 := by
      rw [UInt16.toNat_add]
      simp only [UInt16.reduceToNat]
      omega
    rw [if_pos h, if_pos (by omega), if_neg (by omega), UInt16.add_sub_cancel]
  · rw [if_neg h]

theorem length_toLowerCase (s : JsString) : (toLowerCase s).length = s.length := by
  rw [toLowerCase, List.length_map]

theorem hexValue_hexDigit : ∀ n, n < 16 → hexValue (hexDigit n) = some n := by
  decide

theorem isLowerHexDigit_hexDigit : ∀ n, n < 16 → isLowerHexDigit (hexDigit n) = true := by
  decide

theorem length_toUpperCase (s : JsString) : (toUpperCase s).length = s.length := by
  rw [toUpperCase, List.length_map]

theorem length_bytesToHex (bytes : List UInt8) :
    (bytesToHex bytes).length = 2 * bytes.length := by
  induction bytes with
  | nil => rfl
  | cons b bytes ih =>
      rw [bytesToHex, List.flatMap_cons, List.length_append, List.length_cons]
      rw [bytesToHex] at ih
      rw [ih]
      simp only [List.length_cons, List.length_nil]
      omega

/-- The hexadecimal form of thirty-two bytes is a lowercase hash. -/
theorem isLowerHash_bytesToHex {bytes : List UInt8} (h : bytes.length = 32) :
    isLowerHash (bytesToHex bytes) = true := by
  have hall : (bytesToHex bytes).all isLowerHexDigit = true := by
    rw [List.all_eq_true]
    intro u hu
    rw [bytesToHex, List.mem_flatMap] at hu
    obtain ⟨b, -, hub⟩ := hu
    have hb := b.toNat_lt
    rcases List.mem_cons.mp hub with rfl | hub
    · exact isLowerHexDigit_hexDigit _ (by omega)
    · rw [List.mem_singleton.mp hub]
      exact isLowerHexDigit_hexDigit _ (by omega)
  rw [isLowerHash, length_bytesToHex, h, hall]
  rfl

/-! ## White space -/

/-- The code units `String.prototype.trim` removes: white space and line terminators. -/
def isSpace (u : CodeUnit) : Bool :=
  (0x09 ≤ u && u ≤ 0x0d) || u == 0x20 || u == 0xa0 || u == 0x1680 || (0x2000 ≤ u && u ≤ 0x200a)
    || u == 0x2028 || u == 0x2029 || u == 0x202f || u == 0x205f || u == 0x3000 || u == 0xfeff

/-- `String.prototype.trim` -/
def trim (s : JsString) : JsString :=
  ((s.dropWhile isSpace).reverse.dropWhile isSpace).reverse

/-- The visible part of ASCII is not white space. -/
theorem isSpace_eq_false {u : CodeUnit} (hlo : 0x20 < u) (hhi : u < 0xa0) : isSpace u = false := by
  simp only [UInt16.lt_iff_toNat_lt, UInt16.reduceToNat] at hlo hhi
  simp only [isSpace, Bool.or_eq_false_iff, Bool.and_eq_false_iff, decide_eq_false_iff_not,
    beq_eq_false_iff_ne, ne_eq, ← UInt16.toNat_inj, UInt16.le_iff_toNat_le, UInt16.reduceToNat]
  omega

theorem isSpace_of_isDigit {u : CodeUnit} (h : isDigit u = true) : isSpace u = false := by
  simp only [isDigit, Bool.and_eq_true, decide_eq_true_eq, UInt16.le_iff_toNat_le,
    UInt16.reduceToNat] at h
  refine isSpace_eq_false ?_ ?_
  · simp only [UInt16.lt_iff_toNat_lt, UInt16.reduceToNat]
    omega
  · simp only [UInt16.lt_iff_toNat_lt, UInt16.reduceToNat]
    omega

/-- What is trimmed off is white space. -/
theorem exists_append_trim (s : JsString) :
    ∃ before behind, s = before ++ trim s ++ behind ∧
      before.all isSpace = true ∧ behind.all isSpace = true := by
  refine ⟨s.takeWhile isSpace, ((s.dropWhile isSpace).reverse.takeWhile isSpace).reverse, ?_,
    List.all_takeWhile, ?_⟩
  · rw [List.append_assoc, trim, ← List.reverse_append, List.takeWhile_append_dropWhile,
      List.reverse_reverse, List.takeWhile_append_dropWhile]
  · rw [List.all_reverse]
    exact List.all_takeWhile

theorem dropWhile_append_of_all {p : CodeUnit → Bool} {xs ys : JsString} (hxs : xs.all p = true)
    (hys : ∀ u ∈ ys.head?, p u = false) : (xs ++ ys).dropWhile p = ys := by
  rw [List.dropWhile_append_of_pos (List.all_eq_true.mp hxs)]
  cases ys with
  | nil => rfl
  | cons u ys => exact List.dropWhile_cons_of_neg (by rw [hys u rfl]; exact Bool.false_ne_true)

/-- White space around a text that begins and ends visibly is what is trimmed off. -/
theorem trim_append {before core behind : JsString} (hbefore : before.all isSpace = true)
    (hbehind : behind.all isSpace = true) (hne : core ≠ [])
    (hhead : ∀ u ∈ core.head?, isSpace u = false)
    (hlast : ∀ u ∈ core.getLast?, isSpace u = false) : trim (before ++ core ++ behind) = core := by
  have hfirst : ∀ u ∈ (core ++ behind).head?, isSpace u = false := by
    rwa [List.head?_append_of_ne_nil core hne]
  have hback : ∀ u ∈ core.reverse.head?, isSpace u = false := by
    rwa [List.head?_reverse]
  rw [trim, List.append_assoc, dropWhile_append_of_all hbefore hfirst, List.reverse_append,
    dropWhile_append_of_all (by rwa [List.all_reverse]) hback, List.reverse_reverse]

end Js
end Xcs
