import Xcs.Core.Claims
import Xcs.Core.SchemaForm
import Xcs.Js.Utf8
import Xcs.Json.Bytes
import Xcs.Json.Integers
import Xcs.Json.RoundTrip
import Xcs.Web.SchemaProjection

/-!
# Cursors

A cursor is the place of the last row of a page, written as JSON in base 64.  Whoever asks for the
next page sends it back, so it is read from an arbitrary text: `Buffer.from` skips what is no digit,
`toString` puts U+FFFD where the bytes are no UTF-8, and the value is checked field by field.

* `decodeUtf8Lossy_eq`: where the fatal decoder succeeds, the lenient one agrees with it.
* `decodeCursor_encodeCursor`: every place that a row can have is read back.
* `length_encodeCursor_le`: no cursor is too long for the query string.
-/

namespace Xcs
namespace Web

open Js Json Xcs.Core Db

/-! ## Buffers -/

/-- The value of a digit in either alphabet of base 64. -/
def base64Value (u : CodeUnit) : Option ℕ :=
  if u == 0x2b then some 62
  else if u == 0x2f then some 63
  else base64UrlValue u

/-- The bytes of a run of digits; bits that are left over are dropped. -/
def bytesOfDigits : List ℕ → List UInt8
  | a :: b :: c :: d :: rest =>
      (a * 4 + b / 16).toUInt8 :: (b % 16 * 16 + c / 4).toUInt8 :: (c % 4 * 64 + d).toUInt8
        :: bytesOfDigits rest
  | [a, b, c] => [(a * 4 + b / 16).toUInt8, (b % 16 * 16 + c / 4).toUInt8]
  | [a, b] => [(a * 4 + b / 16).toUInt8]
  | _ => []

/-- `Buffer.from(value, 'base64url')` -/
def bufferFromBase64Url (value : JsString) : List UInt8 :=
  bytesOfDigits (value.filterMap base64Value)

/-- A character of which some bytes were read: how many are missing, the bounds of the next one,
and the bits so far. -/
structure PartialCharacter where
  missing : ℕ
  lower : UInt8
  upper : UInt8
  bits : ℕ

/-- What the first byte of a character gives: units, or a character to be continued. -/
def beginCharacter (a : UInt8) : JsString × Option PartialCharacter :=
  if a < 0x80 then ([a.toUInt16], none)
  else if 0xc2 ≤ a && a ≤ 0xdf then ([], some ⟨1, 0x80, 0xbf, a.toNat - 0xc0⟩)
  else if 0xe0 ≤ a && a ≤ 0xef then
    ([], some ⟨2, if a == 0xe0 then 0xa0 else 0x80, if a == 0xed then 0x9f else 0xbf,
      a.toNat - 0xe0⟩)
  else if 0xf0 ≤ a && a ≤ 0xf4 then
    ([], some ⟨3, if a == 0xf0 then 0x90 else 0x80, if a == 0xf4 then 0x8f else 0xbf,
      a.toNat - 0xf0⟩)
  else ([0xfffd], none)

/-- The decoder of the Encoding Standard from a state on. -/
def decodeCharacters : Option PartialCharacter → List UInt8 → JsString
  | none, [] => []
  | some _, [] => [0xfffd]
  | none, a :: rest => (beginCharacter a).1 ++ decodeCharacters (beginCharacter a).2 rest
  | some p, b :: rest =>
      if p.lower ≤ b && b ≤ p.upper then
        let bits := p.bits * 0x40 + continuationBits b
        if p.missing = 1 then encodeUtf16 bits ++ decodeCharacters none rest
        else decodeCharacters (some ⟨p.missing - 1, 0x80, 0xbf, bits⟩) rest
      else 0xfffd :: ((beginCharacter b).1 ++ decodeCharacters (beginCharacter b).2 rest)

/-- `buffer.toString('utf8')` -/
def decodeUtf8Lossy (bytes : List UInt8) : JsString :=
  decodeCharacters none bytes

/-! ## Cursors -/

/-- `SchemaCursor` and `SchemaRegistrationCursor`: the coordinates of a row, and its UID or the hash
of its transaction. -/
structure ListingCursor where
  ledgerIndex : ℤ
  transactionIndex : ℤ
  identifier : JsString
  deriving DecidableEq

/-- `MAX_POSTGRES_INTEGER` -/
def maxPostgresInteger : ℕ := 2147483647

/-- The value of a cursor whose identifier stands under `name`. -/
def cursorJs (name : JsString) (cursor : ListingCursor) : JsValue :=
  .obj [(js "ledgerIndex", intJs cursor.ledgerIndex),
    (js "transactionIndex", intJs cursor.transactionIndex), (name, .str cursor.identifier)]

/-- Writing a cursor whose identifier stands under `name`. -/
def encodeCursor (name : JsString) (cursor : ListingCursor) : JsString :=
  encodeBase64Url (encodeUtf8 (render (cursorJs name cursor)))

/-- `throw new Error('Invalid cursor')` -/
def invalidCursor {α : Type} : Except Thrown α :=
  .error (.error (js "Invalid cursor"))

/-- A member that must be a safe integer from 0 to a bound. -/
def indexUpTo (bound : ℕ) : JsValue → Option ℕ
  | .num n => n.toNat?.filter fun m => decide (m ≤ bound)
  | _ => none

/-- The checks of the parsed value of a cursor. -/
def readCursor (name : JsString) : JsValue → Except Thrown ListingCursor
  | .obj members =>
      let cursor := JsValue.obj members
      match indexUpTo maxUint32.toNat (cursor.get (js "ledgerIndex")),
          indexUpTo maxPostgresInteger (cursor.get (js "transactionIndex")), cursor.get name with
      | some ledgerIndex, some transactionIndex, .str identifier =>
          if members.length == 3 && isLowerHash identifier then
            .ok ⟨ledgerIndex, transactionIndex, identifier⟩
          else invalidCursor
      | _, _, _ => invalidCursor
  | _ => invalidCursor

/-- Reading a cursor whose identifier stands under `name`. -/
def decodeCursor (name value : JsString) : Except Thrown ListingCursor :=
  match jsonParse (decodeUtf8Lossy (bufferFromBase64Url value)) with
  | some parsed => readCursor name parsed
  | none => invalidCursor

/-- `encodeSchemaCursor` -/
def encodeSchemaCursor : ListingCursor → JsString :=
  encodeCursor (js "schemaUid")

/-- `decodeSchemaCursor` -/
def decodeSchemaCursor : JsString → Except Thrown ListingCursor :=
  decodeCursor (js "schemaUid")

/-- `encodeSchemaRegistrationCursor` -/
def encodeSchemaRegistrationCursor : ListingCursor → JsString :=
  encodeCursor (js "transactionHash")

/-- `decodeSchemaRegistrationCursor` -/
def decodeSchemaRegistrationCursor : JsString → Except Thrown ListingCursor :=
  decodeCursor (js "transactionHash")

/-! ## Buffers there and back -/

theorem base64Value_base64UrlDigit : ∀ n < 64, base64Value (base64UrlDigit n) = some n := by
  decide

/-- **Base 64 is read back.** -/
theorem bufferFromBase64Url_encodeBase64Url (bytes : List UInt8) :
    bufferFromBase64Url (encodeBase64Url bytes) = bytes := by
  have hdigit : ∀ n < 64, ∀ rest : JsString,
      (base64UrlDigit n :: rest).filterMap base64Value = n :: rest.filterMap base64Value := by
    intro n hn rest
    rw [List.filterMap_cons_some (base64Value_base64UrlDigit n hn)]
  unfold bufferFromBase64Url
  fun_induction encodeBase64Url bytes with
  | case1 => rfl
  | case2 x =>
      have hx := x.toNat_lt
      rw [hdigit _ (by omega), hdigit _ (by omega), List.filterMap_nil, bytesOfDigits]
      exact congrArg (fun b => [b]) (eq_toUInt8 (by omega))
  | case3 x y =>
      have hx := x.toNat_lt
      have hy := y.toNat_lt
      rw [hdigit _ (by omega), hdigit _ (by omega), hdigit _ (by omega), List.filterMap_nil,
        bytesOfDigits]
      exact congrArg₂ (fun b c => [b, c]) (eq_toUInt8 (by omega)) (eq_toUInt8 (by omega))
  | case4 x y z rest ih =>
      have hx := x.toNat_lt
      have hy := y.toNat_lt
      have hz := z.toNat_lt
      rw [hdigit _ (by omega), hdigit _ (by omega), hdigit _ (by omega), hdigit _ (by omega),
        bytesOfDigits, ih]
      exact congrArg₂ List.cons (eq_toUInt8 (by omega))
        (congrArg₂ List.cons (eq_toUInt8 (by omega))
          (congrArg (· :: rest) (eq_toUInt8 (by omega))))

theorem length_encodeBase64Url_le (bytes : List UInt8) :
    3 * (encodeBase64Url bytes).length ≤ 4 * bytes.length + 2 := by
  fun_induction encodeBase64Url bytes with
  | case1 => simp
  | case2 x => simp
  | case3 x y => simp
  | case4 x y z rest ih =>
      simp only [List.length_cons]
      omega

section

variable {lower upper b : UInt8} (hlower : lower ≤ b) (hupper : b ≤ upper) (bits : ℕ)
  (rest : List UInt8)

include hlower hupper

theorem decodeCharacters_last :
    decodeCharacters (some ⟨1, lower, upper, bits⟩) (b :: rest)
      = encodeUtf16 (bits * 0x40 + continuationBits b) ++ decodeCharacters none rest := by
  rw [decodeCharacters, if_pos (by simp [hlower, hupper])]
  rfl

theorem decodeCharacters_further (missing : ℕ) :
    decodeCharacters (some ⟨missing + 2, lower, upper, bits⟩) (b :: rest)
      = decodeCharacters
        (some ⟨missing + 1, 0x80, 0xbf, bits * 0x40 + continuationBits b⟩) rest := by
  rw [decodeCharacters, if_pos (by simp [hlower, hupper])]
  rfl

end

/-- **The lenient decoder agrees with the fatal one** where that one succeeds. -/
theorem decodeUtf8Lossy_eq {bytes : List UInt8} {s : JsString} (h : decodeUtf8 bytes = some s) :
    decodeUtf8Lossy bytes = s := by
  unfold decodeUtf8Lossy
  fun_induction decodeUtf8 bytes generalizing s with
  | case1 =>
      cases h
      rfl
  | case2 a rest hone ih =>
      obtain ⟨s', hs', rfl⟩ := Option.map_eq_some_iff.mp h
      rw [decodeCharacters, beginCharacter, if_pos hone, ih hs']
      rfl
  | case3 a hone htwo b rest hb ih =>
      obtain ⟨s', hs', rfl⟩ := Option.map_eq_some_iff.mp h
      simp only [isContinuation, Bool.and_eq_true, decide_eq_true_eq] at hb
      rw [decodeCharacters, beginCharacter, if_neg hone, if_pos htwo, List.nil_append,
        decodeCharacters_last hb.1 hb.2, ih hs']
  | case6 a hone htwo hthree b c rest hcond ih =>
      obtain ⟨s', hs', rfl⟩ := Option.map_eq_some_iff.mp h
      simp only [isContinuation, Bool.and_eq_true, Bool.or_eq_true, decide_eq_true_eq,
        bne_iff_ne] at hcond
      obtain ⟨⟨⟨hb, hc⟩, hlower⟩, hupper⟩ := hcond
      have hlower' : (if a == 0xe0 then 0xa0 else 0x80) ≤ b := by
        by_cases ha : a = 0xe0
        · rw [if_pos (beq_iff_eq.mpr ha)]
          exact hlower.resolve_left (absurd ha)
        · rw [if_neg (by simpa using ha)]
          exact hb.1
      have hupper' : b ≤ (if a == 0xed then 0x9f else 0xbf) := by
        by_cases ha : a = 0xed
        · rw [if_pos (beq_iff_eq.mpr ha)]
          exact hupper.resolve_left (absurd ha)
        · rw [if_neg (by simpa using ha)]
          exact hb.2
      have hbits : ((a.toNat - 0xe0) * 0x40 + continuationBits b) * 0x40 + continuationBits c
          = (a.toNat - 0xe0) * 0x1000 + continuationBits b * 0x40 + continuationBits c := by
        ring
      rw [decodeCharacters, beginCharacter, if_neg hone, if_neg htwo, if_pos hthree,
        List.nil_append, decodeCharacters_further hlower' hupper',
        decodeCharacters_last hc.1 hc.2, ih hs', hbits]
  | case9 a hone htwo hthree hfour b c d rest hcond ih =>
      obtain ⟨s', hs', rfl⟩ := Option.map_eq_some_iff.mp h
      simp only [isContinuation, Bool.and_eq_true, Bool.or_eq_true, decide_eq_true_eq,
        bne_iff_ne] at hcond
      obtain ⟨⟨⟨⟨hb, hc⟩, hd⟩, hlower⟩, hupper⟩ := hcond
      have hlower' : (if a == 0xf0 then 0x90 else 0x80) ≤ b := by
        by_cases ha : a = 0xf0
        · rw [if_pos (beq_iff_eq.mpr ha)]
          exact hlower.resolve_left (absurd ha)
        · rw [if_neg (by simpa using ha)]
          exact hb.1
      have hupper' : b ≤ (if a == 0xf4 then 0x8f else 0xbf) := by
        by_cases ha : a = 0xf4
        · rw [if_pos (beq_iff_eq.mpr ha)]
          exact hupper.resolve_left (absurd ha)
        · rw [if_neg (by simpa using ha)]
          exact hb.2
      have hbits : (((a.toNat - 0xf0) * 0x40 + continuationBits b) * 0x40 + continuationBits c)
            * 0x40 + continuationBits d
          = (a.toNat - 0xf0) * 0x40000 + continuationBits b * 0x1000 + continuationBits c * 0x40
            + continuationBits d := by
        ring
      rw [decodeCharacters, beginCharacter, if_neg hone, if_neg htwo, if_neg hthree, if_pos hfour,
        List.nil_append, decodeCharacters_further hlower' hupper',
        decodeCharacters_further hc.1 hc.2, decodeCharacters_last hd.1 hd.2, ih hs', hbits]
  | _ => cases h

/-! ## Cursors there and back -/

/-- The places that a row can have: the columns are a `uint32`, an `integer` that is not negative,
and a hash. -/
structure IsPlace (cursor : ListingCursor) : Prop where
  ledgerIndex : isUint32Column cursor.ledgerIndex = true
  transactionIndex : 0 ≤ cursor.transactionIndex ∧ cursor.transactionIndex ≤ maxPostgresInteger
  identifier : isLowerHash cursor.identifier = true

/-- The names an identifier stands under. -/
def cursorNames : List JsString :=
  [js "schemaUid", js "transactionHash"]

theorem IsPlace.exists_nat {cursor : ListingCursor} (h : IsPlace cursor) :
    ∃ l t : ℕ, cursor = ⟨l, t, cursor.identifier⟩ ∧ l ≤ maxUint32.toNat ∧
      t ≤ maxPostgresInteger := by
  obtain ⟨hledger, htransaction, -⟩ := h
  rw [isUint32Column, decide_eq_true_eq] at hledger
  refine ⟨cursor.ledgerIndex.toNat, cursor.transactionIndex.toNat, ?_, ?_, ?_⟩
  · rw [Int.toNat_of_nonneg hledger.1, Int.toNat_of_nonneg htransaction.1]
  · rw [maxUint32]
    omega
  · omega

theorem indexUpTo_intJs {n bound : ℕ} (h : n ≤ bound) (hbound : bound ≤ 2 ^ 53) :
    indexUpTo bound (intJs n) = some n := by
  show (JsNumber.ofNat n).toNat?.filter _ = _
  rw [JsNumber.toNat?_ofNat (h.trans hbound)]
  simp [h]

theorem isRenderable_intJs {n : ℕ} (h : n ≤ 2 ^ 53) : isRenderable (intJs n) = true := by
  show isRenderable (.num (JsNumber.ofNat n)) = true
  rw [JsNumber.ofNat_of_le h]
  rfl

theorem readCursor_cursorJs {name : JsString} (hname : name ∈ cursorNames) {l t : ℕ}
    {hash : JsString} (hl : l ≤ maxUint32.toNat) (ht : t ≤ maxPostgresInteger)
    (hhash : isLowerHash hash = true) :
    readCursor name (cursorJs name ⟨l, t, hash⟩) = .ok ⟨l, t, hash⟩ := by
  have hget : (cursorJs name ⟨l, t, hash⟩).get name = .str hash := by
    rcases List.mem_cons.mp hname with rfl | hname
    · rfl
    · rw [List.mem_singleton.mp hname]
      rfl
  have hledger : (cursorJs name ⟨l, t, hash⟩).get (js "ledgerIndex") = intJs l := rfl
  have htransaction : (cursorJs name ⟨l, t, hash⟩).get (js "transactionIndex") = intJs t := rfl
  rw [cursorJs] at hget hledger htransaction ⊢
  simp only [readCursor, hget, hledger, htransaction, indexUpTo_intJs hl (by decide),
    indexUpTo_intJs ht (by decide), hhash]
  rfl

/-- Parsing keeps the order of the members of a cursor. -/
theorem materialize_cursorJs {name : JsString} (hname : name ∈ cursorNames)
    (cursor : ListingCursor) : materialize (cursorJs name cursor) = cursorJs name cursor := by
  rcases List.mem_cons.mp hname with rfl | hname
  · rfl
  · rw [List.mem_singleton.mp hname]
    rfl

theorem isRenderable_cursorJs (name : JsString) {l t : ℕ} (hl : l ≤ 2 ^ 53) (ht : t ≤ 2 ^ 53)
    (hash : JsString) : isRenderable (cursorJs name ⟨l, t, hash⟩) = true := by
  rw [cursorJs, isRenderable_obj, List.all_cons, List.all_cons, List.all_cons,
    isRenderable_intJs hl, isRenderable_intJs ht]
  rfl

/-- **A cursor is read back** wherever a row can be. -/
theorem decodeCursor_encodeCursor {name : JsString} (hname : name ∈ cursorNames)
    {cursor : ListingCursor} (h : IsPlace cursor) :
    decodeCursor name (encodeCursor name cursor) = .ok cursor := by
  obtain ⟨l, t, hcursor, hl, ht⟩ := h.exists_nat
  have hrenderable := isRenderable_cursorJs name (hl.trans (by decide)) (ht.trans (by decide))
    cursor.identifier
  have hread := readCursor_cursorJs hname hl ht h.identifier
  rw [← hcursor] at hrenderable hread
  rw [decodeCursor, encodeCursor, bufferFromBase64Url_encodeBase64Url,
    decodeUtf8Lossy_eq (decodeUtf8_encodeUtf8 (isWellFormed_render _)),
    jsonParse_render hrenderable, materialize_cursorJs hname]
  exact hread

/-! ## The length of a cursor -/

/-- Digits stand between quotes as they are. -/
theorem escapeUnits_of_isLowerHexDigit : ∀ {s : JsString},
    (∀ u ∈ s, isLowerHexDigit u = true) → escapeUnits s = s := by
  have hunit : ∀ u : CodeUnit, isLowerHexDigit u = true → isHighSurrogate u = false ∧
      isLowSurrogate u = false ∧ escapeUnit u = [u] := by
    intro u hu
    have hbounds : 0x30 ≤ u.toNat ∧ u.toNat ≤ 0x39 ∨ 0x61 ≤ u.toNat ∧ u.toNat ≤ 0x66 := by
      simp only [isLowerHexDigit, Bool.or_eq_true, Bool.and_eq_true, decide_eq_true_eq,
        UInt16.le_iff_toNat_le] at hu
      exact hu
    refine ⟨?_, ?_, ?_⟩
    · rw [← Bool.not_eq_true, isHighSurrogate_iff]
      omega
    · rw [← Bool.not_eq_true, isLowSurrogate_iff]
      omega
    · simp only [escapeUnit, beq_iff_eq, ← UInt16.toNat_inj, UInt16.lt_iff_toNat_lt]
      simp only [UInt16.reduceToNat]
      split_ifs <;> first | rfl | omega
  intro s h
  fun_induction escapeUnits s with
  | case1 => rfl
  | case2 u hsurrogate =>
      obtain ⟨hhigh, hlow, -⟩ := hunit u (h u List.mem_cons_self)
      rw [hhigh, hlow] at hsurrogate
      cases hsurrogate
  | case3 u hsurrogate => exact (hunit u (h u List.mem_cons_self)).2.2
  | case4 u v rest hhigh =>
      rw [(hunit u (h u List.mem_cons_self)).1] at hhigh
      cases hhigh
  | case5 u v rest hhigh =>
      rw [(hunit u (h u List.mem_cons_self)).1] at hhigh
      cases hhigh
  | case6 u v rest hhigh hlow =>
      rw [(hunit u (h u List.mem_cons_self)).2.1] at hlow
      cases hlow
  | case7 u v rest hhigh hlow ih =>
      rw [(hunit u (h u List.mem_cons_self)).2.2,
        ih fun w hw => h w (List.mem_cons_of_mem u hw)]
      rfl

/-- An ASCII text. -/
def isAscii (s : JsString) : Bool :=
  s.all fun u => decide (u.toNat < 0x80)

@[simp] theorem isAscii_append (s t : JsString) :
    isAscii (s ++ t) = (isAscii s && isAscii t) :=
  List.all_append

@[simp] theorem isAscii_cons (u : CodeUnit) (s : JsString) :
    isAscii (u :: s) = (decide (u.toNat < 0x80) && isAscii s) :=
  rfl

theorem isAscii_natToString (n : ℕ) : isAscii (natToString n) = true := by
  rw [isAscii, natToString, digitUnits, List.all_map, List.all_eq_true]
  intro d hd
  have hten := lt_ten_of_mem_natDigits hd
  show decide ((0x30 + d).toUInt16.toNat < 0x80) = true
  rw [toNat_toUInt16 (by omega), decide_eq_true_eq]
  omega

theorem isAscii_of_isLowerHash {s : JsString} (h : isLowerHash s = true) : isAscii s = true := by
  have hplain := isPlain_of_isLowerHash h
  rw [isPlain, List.all_eq_true] at hplain
  rw [isAscii, List.all_eq_true]
  intro u hu
  have hunit := hplain u hu
  simp only [Bool.and_eq_true, decide_eq_true_eq, UInt16.le_iff_toNat_le] at hunit ⊢
  simp only [UInt16.reduceToNat] at hunit ⊢
  omega

theorem quote_of_isLowerHash {s : JsString} (h : isLowerHash s = true) :
    quote s = 0x22 :: (s ++ [0x22]) := by
  simp only [isLowerHash, Bool.and_eq_true, List.all_eq_true] at h
  rw [quote, escapeUnits_of_isLowerHexDigit h.2]

/-- The text of a cursor. -/
theorem render_cursorJs (name : JsString) {l t : ℕ} (hl : l < 2 ^ 53) (ht : t < 2 ^ 53)
    (hash : JsString) :
    render (cursorJs name ⟨l, t, hash⟩)
      = 0x7b :: (quote (js "ledgerIndex") ++ 0x3a :: (natToString l
        ++ 0x2c :: (quote (js "transactionIndex") ++ 0x3a :: (natToString t
        ++ 0x2c :: (quote name ++ 0x3a :: (quote hash ++ [0x7d])))))) := by
  have hledger : render (intJs l) = natToString l := numberToString_ofNat hl
  have htransaction : render (intJs t) = natToString t := numberToString_ofNat ht
  rw [cursorJs, render, renderMembers, renderMembers, renderMembers, hledger, htransaction, render]

/-- **A cursor fits the query string.**  The text is ASCII, so it has a byte for each unit. -/
theorem length_encodeCursor_le {name : JsString} (hname : name ∈ cursorNames)
    {cursor : ListingCursor} (h : IsPlace cursor) :
    1 ≤ (encodeCursor name cursor).length ∧ (encodeCursor name cursor).length ≤ 512 := by
  obtain ⟨l, t, hcursor, hl, ht⟩ := h.exists_nat
  have htext := render_cursorJs name (l := l) (t := t)
    (hl.trans_lt (by decide)) (ht.trans_lt (by decide)) cursor.identifier
  rw [← hcursor] at htext
  have hbounds : isAscii (quote name) = true ∧ (quote name).length ≤ 17 := by
    rcases List.mem_cons.mp hname with rfl | hname
    · decide
    · rw [List.mem_singleton.mp hname]
      decide
  have hhash := h.identifier
  have hlength : cursor.identifier.length = 64 := by
    simp only [isLowerHash, Bool.and_eq_true, beq_iff_eq] at hhash
    exact hhash.1
  have hascii : isAscii (render (cursorJs name cursor)) = true := by
    rw [htext, quote_of_isLowerHash hhash]
    simp only [isAscii_append, isAscii_cons, isAscii_natToString, hbounds.1,
      isAscii_of_isLowerHash hhash]
    decide
  have hunits : (render (cursorJs name cursor)).length ≤ 150 := by
    have hdigits : ∀ n : ℕ, n ≤ maxUint32.toNat → (natToString n).length ≤ 10 := by
      intro n hn
      rw [natToString, digitUnits, List.length_map]
      exact length_natDigits_le (hn.trans_lt (by decide))
    have hl' := hdigits l hl
    have ht' := hdigits t (ht.trans (by decide))
    have hledger : (quote (js "ledgerIndex")).length = 13 := by decide
    have htransaction : (quote (js "transactionIndex")).length = 18 := by decide
    rw [htext, quote_of_isLowerHash hhash]
    simp only [List.length_append, List.length_cons, List.length_nil, hledger, htransaction,
      hlength]
    have := hbounds.2
    omega
  have hpositive : 1 ≤ (render (cursorJs name cursor)).length := by
    rw [htext, List.length_cons]
    omega
  have hbytes : (encodeUtf8 (render (cursorJs name cursor))).length
      = (render (cursorJs name cursor)).length :=
    length_encodeUtf8_of_ascii fun u hu => of_decide_eq_true (List.all_eq_true.mp hascii u hu)
  have hle := length_encodeBase64Url_le (encodeUtf8 (render (cursorJs name cursor)))
  have hread := bufferFromBase64Url_encodeBase64Url (encodeUtf8 (render (cursorJs name cursor)))
  rw [← encodeCursor] at hle hread
  refine ⟨?_, by omega⟩
  rw [Nat.one_le_iff_ne_zero]
  intro hzero
  rw [List.length_eq_zero_iff.mp hzero] at hread
  rw [← hread] at hbytes
  have hnone : (bufferFromBase64Url []).length = 0 := rfl
  omega

end Web
end Xcs
