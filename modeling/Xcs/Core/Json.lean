import Xcs.Errors
import Xcs.Core.Platform
import Xcs.Js.Utf8
import Xcs.Json.RoundTrip

/-!
# The JSON of the protocol

Canonical JSON is what is hashed, compared and stored, so the protocol checks a value before it
writes it and after it read it.  The checks refuse what JSON cannot hold, and the strings that
`assertWellFormed` finds malformed.

* `isAccepted` is the test behind `assertWellFormed`: it looks past a high surrogate at the end of
  a string, where the next code unit is `NaN` and every comparison with it is false;
  `isAccepted_iff` says that it misses nothing else.
* `assertJsonValue_eq_ok`, `canonicalJson_eq_ok` and `parseJson_eq_ok` say when the three functions
  return and what.
* `canonicalJson_congr` says that the order of object members does not matter.
-/

namespace Xcs
namespace Core

open Js Json

/-! ## Strings -/

/-- The strings on which `assertWellFormed` returns. -/
def isAccepted : JsString → Bool
  | [] => true
  | [u] => !isLowSurrogate u
  | u :: v :: rest =>
      if isHighSurrogate u then isLowSurrogate v && isAccepted rest
      else !isLowSurrogate u && isAccepted (v :: rest)

/-- `assertWellFormed` -/
def assertWellFormed (value path : JsString) : Except Thrown Unit :=
  if isAccepted value then .ok ()
  else failXcs .unsupportedJsonValue (js "JSON strings must contain valid Unicode") path []

theorem assertWellFormed_eq_ok {value path : JsString} {u : Unit} :
    assertWellFormed value path = .ok u ↔ isAccepted value = true := by
  rw [assertWellFormed]
  cases isAccepted value <;> simp [failXcs]

/-- A well-formed string is accepted. -/
theorem isAccepted_of_isWellFormed {s : JsString} (h : isWellFormed s = true) :
    isAccepted s = true := by
  fun_induction isAccepted s with
  | case1 => rfl
  | case2 u =>
      rw [isWellFormed, Bool.and_eq_true] at h
      exact h.2
  | case3 u v rest hu ih =>
      rw [isWellFormed, if_pos hu, Bool.and_eq_true] at h
      rw [Bool.and_eq_true]
      exact ⟨h.1, ih h.2⟩
  | case4 u v rest hu ih =>
      rw [isWellFormed, if_neg hu, Bool.and_eq_true] at h
      rw [Bool.and_eq_true]
      exact ⟨h.1, ih h.2⟩

/-- **What `assertWellFormed` misses**: the only other strings it accepts are the well-formed ones
with one more high surrogate at the end. -/
theorem isAccepted_iff {s : JsString} : isAccepted s = true ↔
    isWellFormed s = true ∨
      ∃ t u, s = t ++ [u] ∧ isWellFormed t = true ∧ isHighSurrogate u = true := by
  constructor
  · intro h
    fun_induction isAccepted s with
    | case1 => exact Or.inl rfl
    | case2 u =>
        cases hu : isHighSurrogate u with
        | true => exact Or.inr ⟨[], u, rfl, rfl, hu⟩
        | false =>
            refine Or.inl ?_
            rw [isWellFormed, hu, h]
            rfl
    | case3 u v rest hu ih =>
        rw [Bool.and_eq_true] at h
        rcases ih h.2 with hrest | ⟨t, w, rfl, ht, hw⟩
        · refine Or.inl ?_
          rw [isWellFormed, if_pos hu, h.1, hrest]
          rfl
        · refine Or.inr ⟨u :: v :: t, w, rfl, ?_, hw⟩
          rw [isWellFormed, if_pos hu, h.1, ht]
          rfl
    | case4 u v rest hu ih =>
        rw [Bool.and_eq_true] at h
        rw [Bool.not_eq_true] at hu
        have hlow : isLowSurrogate u = false := by simpa using h.1
        rcases ih h.2 with hrest | ⟨t, w, htext, ht, hw⟩
        · refine Or.inl ?_
          rw [isWellFormed_cons_of_not_high hu, hlow, hrest]
          rfl
        · refine Or.inr ⟨u :: t, w, congrArg (u :: ·) htext, ?_, hw⟩
          rw [isWellFormed_cons_of_not_high hu, hlow, ht]
          rfl
  · rintro (h | ⟨t, u, rfl, ht, hu⟩)
    · exact isAccepted_of_isWellFormed h
    · have hlow : isLowSurrogate u = false := by
        rw [← Bool.not_eq_true, isLowSurrogate_iff]
        rw [isHighSurrogate_iff] at hu
        omega
      fun_induction isWellFormed t with
      | case1 => rw [List.nil_append, isAccepted, hlow]; rfl
      | case2 v =>
          rw [Bool.and_eq_true] at ht
          have hv : isHighSurrogate v = false := by simpa using ht.1
          have hv' : isLowSurrogate v = false := by simpa using ht.2
          show isAccepted [v, u] = true
          rw [isAccepted, hv, hv']
          show isAccepted [u] = true
          rw [isAccepted, hlow]
          rfl
      | case3 v w rest hv ih =>
          rw [Bool.and_eq_true] at ht
          show isAccepted (v :: w :: (rest ++ [u])) = true
          rw [isAccepted, if_pos hv, ht.1, ih ht.2]
          rfl
      | case4 v w rest hv ih =>
          rw [Bool.and_eq_true] at ht
          have hv' : isLowSurrogate v = false := by simpa using ht.1
          have hrest := ih ht.2
          show isAccepted (v :: w :: (rest ++ [u])) = true
          rw [isAccepted, if_neg hv, hv']
          exact hrest

/-- `utf8ByteLength` -/
def utf8ByteLength (value : JsString) : Except Thrown ℕ := do
  assertWellFormed value (js "$")
  pure (encodeUtf8 value).length

/-! ## Values -/

mutual

/-- `assertJsonValueInternal`; a value is a finite tree, so it is not cyclic and not sparse. -/
def assertJsonValueInternal : JsValue → JsString → Except Thrown Unit
  | .undefined, path =>
      failXcs .unsupportedJsonValue (js "Unsupported undefined value") path []
  | .null, _ => .ok ()
  | .bool _, _ => .ok ()
  | .num n, path =>
      if n.isFinite then .ok ()
      else failXcs .unsupportedJsonValue (js "JSON numbers must be finite") path []
  | .str s, path => assertWellFormed s path
  | .arr items, path => assertJsonItems items path 0
  | .obj members, path => assertJsonMembers members path

/-- The loop over the items of an array. -/
def assertJsonItems : List JsValue → JsString → ℕ → Except Thrown Unit
  | [], _, _ => .ok ()
  | v :: items, path, index => do
      assertJsonValueInternal v (path ++ js "[" ++ natToString index ++ js "]")
      assertJsonItems items path (index + 1)

/-- The loop over the members of an object. -/
def assertJsonMembers : Members → JsString → Except Thrown Unit
  | [], _ => .ok ()
  | (key, v) :: members, path => do
      assertWellFormed key path
      assertJsonValueInternal v (path ++ js "." ++ key)
      assertJsonMembers members path

end

/-- `assertJsonValue` -/
def assertJsonValue (value : JsValue) : Except Thrown Unit :=
  assertJsonValueInternal value (js "$")

mutual

theorem assertJsonValueInternal_eq_ok : ∀ (v : JsValue) (path : JsString) {u : Unit},
    assertJsonValueInternal v path = .ok u ↔
      v.isJson = true ∧ v.allStrings isAccepted = true
  | .undefined, path, u => by simp [assertJsonValueInternal, failXcs]
  | .null, path, u => by simp [assertJsonValueInternal, JsValue.isJson, JsValue.allStrings]
  | .bool b, path, u => by simp [assertJsonValueInternal, JsValue.isJson, JsValue.allStrings]
  | .num n, path, u => by
      rw [assertJsonValueInternal]
      cases hn : n.isFinite <;> simp [failXcs, JsValue.isJson, JsValue.allStrings, hn]
  | .str s, path, u => by simp [assertJsonValueInternal, assertWellFormed_eq_ok]
  | .arr items, path, u => by
      rw [assertJsonValueInternal, assertJsonItems_eq_ok items path 0, JsValue.isJson_arr,
        JsValue.allStrings_arr]
  | .obj members, path, u => by
      rw [assertJsonValueInternal, assertJsonMembers_eq_ok members path, JsValue.isJson_obj,
        JsValue.allStrings_obj]

theorem assertJsonItems_eq_ok : ∀ (items : List JsValue) (path : JsString) (index : ℕ) {u : Unit},
    assertJsonItems items path index = .ok u ↔
      items.all JsValue.isJson = true ∧ items.all (JsValue.allStrings isAccepted) = true
  | [], path, index, u => by simp [assertJsonItems]
  | v :: items, path, index, u => by
      have hv := fun p => assertJsonValueInternal_eq_ok v p (u := ())
      have hitems := fun i => assertJsonItems_eq_ok items path i (u := u)
      simp only [assertJsonItems, bind_eq_ok, exists_const, hv, hitems, List.all_cons,
        Bool.and_eq_true]
      tauto

theorem assertJsonMembers_eq_ok : ∀ (members : Members) (path : JsString) {u : Unit},
    assertJsonMembers members path = .ok u ↔
      (members.all fun m => m.2.isJson) = true ∧
        (members.all fun m => isAccepted m.1 && m.2.allStrings isAccepted) = true
  | [], path, u => by simp [assertJsonMembers]
  | (key, v) :: members, path, u => by
      have hv := fun p => assertJsonValueInternal_eq_ok v p (u := ())
      have hmembers := assertJsonMembers_eq_ok members path (u := u)
      simp only [assertJsonMembers, bind_eq_ok, exists_const, assertWellFormed_eq_ok, hv,
        hmembers, List.all_cons, Bool.and_eq_true]
      tauto

end

/-- The checked values are the JSON values whose strings are all accepted. -/
theorem assertJsonValue_eq_ok {v : JsValue} {u : Unit} :
    assertJsonValue v = .ok u ↔ v.isJson = true ∧ v.allStrings isAccepted = true :=
  assertJsonValueInternal_eq_ok v _

/-! ## Writing -/

/-- `canonicalize` of the serialiser package, on a JSON value. -/
def canonicalizeRfc8785 (P : Platform) (value : JsValue) : Except Thrown JsString :=
  if P.escapesLoneSurrogates || value.allStrings isWellFormed then .ok (canonicalText value)
  else .error (.error (js "Lone surrogate"))

/-- `canonicalJson` -/
def canonicalJson (P : Platform) (value : JsValue) : Except Thrown JsString := do
  assertJsonValue value
  canonicalizeRfc8785 P value

/-- `encodeCanonicalJson` -/
def encodeCanonicalJson (P : Platform) (value : JsValue) : Except Thrown (List UInt8) := do
  let text ← canonicalJson P value
  pure (encodeUtf8 text)

/-- `sha256Hex` -/
def sha256Hex (P : Platform) (bytes : List UInt8) : JsString :=
  bytesToHex (P.sha256 bytes)

theorem isLowerHash_sha256Hex (P : Platform) (bytes : List UInt8) :
    isLowerHash (sha256Hex P bytes) = true :=
  isLowerHash_bytesToHex (P.sha256_length bytes)

/-- The values `canonicalJson` can write. -/
def isWritable (P : Platform) (value : JsValue) : Bool :=
  value.isJson && value.allStrings isAccepted
    && (P.escapesLoneSurrogates || value.allStrings isWellFormed)

theorem canonicalJson_eq_ok {P : Platform} {v : JsValue} {text : JsString} :
    canonicalJson P v = .ok text ↔ isWritable P v = true ∧ text = canonicalText v := by
  simp only [canonicalJson, bind_eq_ok, assertJsonValue_eq_ok, exists_const, canonicalizeRfc8785,
    isWritable, Bool.and_eq_true]
  split_ifs with h
  · rw [Except.ok.injEq]
    exact ⟨fun hv => ⟨⟨hv.1, h⟩, hv.2.symm⟩, fun hv => ⟨hv.1.1, hv.2.symm⟩⟩
  · simp [h]

theorem isWritable_canon (P : Platform) (v : JsValue) : isWritable P v.canon = isWritable P v := by
  rw [isWritable, isWritable, JsValue.isJson_canon, JsValue.allStrings_canon,
    JsValue.allStrings_canon]

/-- Values that differ in the order of members only are written alike. -/
theorem canonicalJson_congr {P : Platform} {v w : JsValue} (h : v.canon = w.canon)
    {text : JsString} : canonicalJson P v = .ok text ↔ canonicalJson P w = .ok text := by
  rw [canonicalJson_eq_ok, canonicalJson_eq_ok, canonicalText_eq_of_canon_eq h,
    ← isWritable_canon P v, h, isWritable_canon]

/-- A JSON value whose strings are well formed is writable. -/
theorem isWritable_of_isWellFormed {P : Platform} {v : JsValue} (hjson : v.isJson = true)
    (hstrings : v.allStrings isWellFormed = true) : isWritable P v = true := by
  have haccepted : v.allStrings isAccepted = true :=
    JsValue.allStrings_imp (fun _ => isAccepted_of_isWellFormed) hstrings
  simp [isWritable, hjson, hstrings, haccepted]

/-- The canonical text determines the value up to the order of members. -/
theorem canon_eq_of_canonicalText_eq {v w : JsValue} (hv : v.isJson = true)
    (hw : w.isJson = true) (h : canonicalText v = canonicalText w) : v.canon = w.canon := by
  have hread := parseText_render (isRenderable_canon hv)
  rw [← canonicalText, h, canonicalText, parseText_render (isRenderable_canon hw)] at hread
  exact (Option.some.inj hread).symm

/-! ## Reading -/

mutual

/-- `rejectDuplicateObjectKeys` on the syntax tree. -/
def rejectDuplicateObjectKeys : JsValue → Except Thrown Unit
  | .obj members => rejectDuplicateMembers members []
  | .arr items => rejectDuplicateItems items
  | _ => .ok ()

def rejectDuplicateItems : List JsValue → Except Thrown Unit
  | [] => .ok ()
  | v :: items => do
      rejectDuplicateObjectKeys v
      rejectDuplicateItems items

/-- The loop over the properties of an object, with the keys seen so far. -/
def rejectDuplicateMembers : Members → List JsString → Except Thrown Unit
  | [], _ => .ok ()
  | (key, v) :: members, keys => do
      if key ∈ keys then
        failXcs .invalidJson (js "Input contains duplicate key " ++ key) (js "$") []
      rejectDuplicateObjectKeys v
      rejectDuplicateMembers members (key :: keys)

end

/-- `parseJson` on a text. -/
def parseJson (text : JsString) : Except Thrown JsValue :=
  match parseText text with
  | none => failXcs .invalidJson (js "Input is not valid JSON") (js "$") []
  | some root => do
      rejectDuplicateObjectKeys root
      match jsonParse text with
      | none => .error .syntaxError
      | some parsed => do
          assertJsonValue parsed
          pure parsed

/-- `parseCanonicalJson` on a text. -/
def parseCanonicalJson (P : Platform) (text : JsString) : Except Thrown JsValue := do
  let parsed ← parseJson text
  let canonical ← canonicalJson P parsed
  if canonical ≠ text then
    failXcs .nonCanonicalJson (js "Input must use RFC 8785 canonical JSON") (js "$") []
  assertJsonValue parsed
  pure parsed

/-- `parseCanonicalJson` on bytes; of the error for bytes that are not UTF-8 the `cause`, a text of
the decoder, is left out. -/
def parseCanonicalBytes (P : Platform) (bytes : List UInt8) : Except Thrown JsValue :=
  match decodeUtf8 bytes with
  | none => failXcs .invalidJson (js "Input is not valid UTF-8") (js "$") []
  | some text => parseCanonicalJson P text

mutual

theorem rejectDuplicateObjectKeys_eq_ok : ∀ (v : JsValue) {u : Unit},
    rejectDuplicateObjectKeys v = .ok u ↔ v.distinctKeys = true
  | .obj members, u => by
      rw [rejectDuplicateObjectKeys, rejectDuplicateMembers_eq_ok members [],
        JsValue.distinctKeys_obj, Bool.and_eq_true, decide_eq_true_eq]
      simp
  | .arr items, u => by
      rw [rejectDuplicateObjectKeys, rejectDuplicateItems_eq_ok items, JsValue.distinctKeys_arr]
  | .undefined, u => by simp [rejectDuplicateObjectKeys, JsValue.distinctKeys]
  | .null, u => by simp [rejectDuplicateObjectKeys, JsValue.distinctKeys]
  | .bool b, u => by simp [rejectDuplicateObjectKeys, JsValue.distinctKeys]
  | .num n, u => by simp [rejectDuplicateObjectKeys, JsValue.distinctKeys]
  | .str s, u => by simp [rejectDuplicateObjectKeys, JsValue.distinctKeys]

theorem rejectDuplicateItems_eq_ok : ∀ (items : List JsValue) {u : Unit},
    rejectDuplicateItems items = .ok u ↔ items.all JsValue.distinctKeys = true
  | [], u => by simp [rejectDuplicateItems]
  | v :: items, u => by
      have hv := rejectDuplicateObjectKeys_eq_ok v (u := ())
      have hitems := rejectDuplicateItems_eq_ok items (u := u)
      simp only [rejectDuplicateItems, bind_eq_ok, exists_const, hv, hitems, List.all_cons,
        Bool.and_eq_true]

theorem rejectDuplicateMembers_eq_ok : ∀ (members : Members) (keys : List JsString) {u : Unit},
    rejectDuplicateMembers members keys = .ok u ↔
      (members.map (·.1)).Nodup ∧ (∀ key ∈ members.map (·.1), key ∉ keys) ∧
        (members.all fun m => m.2.distinctKeys) = true
  | [], keys, u => by simp [rejectDuplicateMembers]
  | (key, v) :: members, keys, u => by
      have hv := rejectDuplicateObjectKeys_eq_ok v (u := ())
      have hmembers := rejectDuplicateMembers_eq_ok members (key :: keys) (u := u)
      by_cases hkey : key ∈ keys
      · simp [rejectDuplicateMembers, hkey, failXcs]
      · simp only [rejectDuplicateMembers, hkey, if_false, bind_eq_ok, exists_const, hv,
          hmembers, List.map_cons, List.nodup_cons, List.all_cons, Bool.and_eq_true,
          List.mem_cons, not_or]
        constructor
        · rintro ⟨hd, hnodup, hnew, hall⟩
          refine ⟨⟨fun h => (hnew key h).1 rfl, hnodup⟩, ?_, hd, hall⟩
          rintro k (rfl | hk)
          · exact hkey
          · exact (hnew k hk).2
        · rintro ⟨⟨hnot, hnodup⟩, hnew, hd, hall⟩
          refine ⟨hd, hnodup, fun k hk => ⟨?_, hnew k (Or.inr hk)⟩, hall⟩
          rintro rfl
          exact hnot hk

end

/-- What `parseJson` accepts: a JSON text without repeated keys, whose value passes the checks. -/
theorem parseJson_eq_ok {text : JsString} {v : JsValue} :
    parseJson text = .ok v ↔
      ∃ root, parseText text = some root ∧ root.distinctKeys = true ∧ v = materialize root ∧
        v.isJson = true ∧ v.allStrings isAccepted = true := by
  rw [parseJson]
  cases hroot : parseText text with
  | none => simp [failXcs]
  | some root =>
      have hparse : jsonParse text = some (materialize root) := by rw [jsonParse, hroot]; rfl
      simp only [hparse, bind_eq_ok, exists_const, rejectDuplicateObjectKeys_eq_ok,
        assertJsonValue_eq_ok, pure_eq_ok, Option.some.injEq, exists_eq_left']
      constructor
      · rintro ⟨hkeys, hchecks, rfl⟩
        exact ⟨hkeys, rfl, hchecks.1, hchecks.2⟩
      · rintro ⟨hkeys, rfl, hjson, hstrings⟩
        exact ⟨hkeys, ⟨hjson, hstrings⟩, rfl⟩

/-- A parsed value is a JSON value whose objects repeat no key. -/
theorem parseJson_distinctKeys {text : JsString} {v : JsValue} (h : parseJson text = .ok v) :
    v.isJson = true ∧ v.distinctKeys = true ∧ v.allStrings isAccepted = true := by
  obtain ⟨root, -, -, rfl, hjson, hstrings⟩ := parseJson_eq_ok.mp h
  exact ⟨hjson, distinctKeys_materialize root, hstrings⟩

/-- The canonical text of a value RFC 8785 has a text for is parsed, to the value up to the order
of members. -/
theorem parseJson_canonicalText {v : JsValue} (hjson : v.isJson = true)
    (hkeys : v.distinctKeys = true) (hstrings : v.allStrings isAccepted = true) :
    ∃ w, parseJson (canonicalText v) = .ok w ∧ w.canon = v.canon := by
  have hparse : parseText (canonicalText v) = some v.canon :=
    parseText_render (isRenderable_canon hjson)
  have hcanonKeys : v.canon.distinctKeys = true := by rwa [JsValue.distinctKeys_canon]
  have hcanon := canon_materialize_canon hkeys
  refine ⟨materialize v.canon, parseJson_eq_ok.mpr ⟨v.canon, hparse, hcanonKeys, rfl, ?_, ?_⟩,
    hcanon⟩
  · rwa [← JsValue.isJson_canon, hcanon, JsValue.isJson_canon]
  · rwa [← JsValue.allStrings_canon, hcanon, JsValue.allStrings_canon]

theorem parseCanonicalJson_eq_ok {P : Platform} {text : JsString} {v : JsValue} :
    parseCanonicalJson P text = .ok v ↔
      parseJson text = .ok v ∧ isWritable P v = true ∧ canonicalText v = text := by
  simp only [parseCanonicalJson, bind_eq_ok, canonicalJson_eq_ok]
  constructor
  · rintro ⟨w, hparse, _, ⟨hwritable, rfl⟩, hrest⟩
    by_cases htext : canonicalText w = text
    · rw [if_neg (not_not.mpr htext), bind_eq_ok] at hrest
      obtain ⟨_, -, hw⟩ := hrest
      rw [pure_eq_ok] at hw
      subst hw
      exact ⟨hparse, hwritable, htext⟩
    · rw [if_pos htext] at hrest
      cases hrest
  · rintro ⟨hparse, hwritable, htext⟩
    obtain ⟨hjson, -, hstrings⟩ := parseJson_distinctKeys hparse
    refine ⟨v, hparse, _, ⟨hwritable, rfl⟩, ?_⟩
    rw [if_neg (not_not.mpr htext), bind_eq_ok]
    exact ⟨(), assertJsonValue_eq_ok.mpr ⟨hjson, hstrings⟩, rfl⟩

theorem parseCanonicalBytes_eq_ok {bytes : List UInt8} {v : JsValue} :
    parseCanonicalBytes P bytes = .ok v ↔ ∃ text, decodeUtf8 bytes = some text ∧
      parseJson text = .ok v ∧ isWritable P v = true ∧ canonicalText v = text := by
  unfold parseCanonicalBytes
  cases decodeUtf8 bytes with
  | none => simp [failXcs]
  | some text => simp only [parseCanonicalJson_eq_ok, Option.some.injEq, exists_eq_left']

/-! ## What is thrown -/

theorem onlyXcs_assertWellFormed (value path : JsString) :
    OnlyXcs (assertWellFormed value path) := by
  unfold assertWellFormed
  split_ifs
  · exact onlyXcs_ok _
  · exact onlyXcs_failXcs _ _ _ _

theorem onlyXcs_utf8ByteLength (value : JsString) : OnlyXcs (utf8ByteLength value) :=
  (onlyXcs_assertWellFormed value _).bind fun _ _ => onlyXcs_ok _

mutual

theorem onlyXcs_assertJsonValueInternal : ∀ (v : JsValue) (path : JsString),
    OnlyXcs (assertJsonValueInternal v path)
  | .undefined, _ => onlyXcs_failXcs _ _ _ _
  | .null, _ => onlyXcs_ok _
  | .bool _, _ => onlyXcs_ok _
  | .num n, path => by
      unfold assertJsonValueInternal
      split_ifs
      · exact onlyXcs_ok _
      · exact onlyXcs_failXcs _ _ _ _
  | .str s, path => onlyXcs_assertWellFormed s path
  | .arr items, path => onlyXcs_assertJsonItems items path 0
  | .obj members, path => onlyXcs_assertJsonMembers members path

theorem onlyXcs_assertJsonItems : ∀ (items : List JsValue) (path : JsString) (index : ℕ),
    OnlyXcs (assertJsonItems items path index)
  | [], _, _ => onlyXcs_ok _
  | v :: items, path, index => (onlyXcs_assertJsonValueInternal v _).bind fun _ _ =>
      onlyXcs_assertJsonItems items path (index + 1)

theorem onlyXcs_assertJsonMembers : ∀ (members : Members) (path : JsString),
    OnlyXcs (assertJsonMembers members path)
  | [], _ => onlyXcs_ok _
  | (key, v) :: members, path => (onlyXcs_assertWellFormed key path).bind fun _ _ =>
      (onlyXcs_assertJsonValueInternal v _).bind fun _ _ => onlyXcs_assertJsonMembers members path

end

theorem onlyXcs_assertJsonValue (v : JsValue) : OnlyXcs (assertJsonValue v) :=
  onlyXcs_assertJsonValueInternal v _

mutual

theorem onlyXcs_rejectDuplicateObjectKeys : ∀ v : JsValue, OnlyXcs (rejectDuplicateObjectKeys v)
  | .obj members => onlyXcs_rejectDuplicateMembers members []
  | .arr items => onlyXcs_rejectDuplicateItems items
  | .undefined => onlyXcs_ok _
  | .null => onlyXcs_ok _
  | .bool _ => onlyXcs_ok _
  | .num _ => onlyXcs_ok _
  | .str _ => onlyXcs_ok _

theorem onlyXcs_rejectDuplicateItems : ∀ items : List JsValue,
    OnlyXcs (rejectDuplicateItems items)
  | [] => onlyXcs_ok _
  | v :: items => (onlyXcs_rejectDuplicateObjectKeys v).bind fun _ _ =>
      onlyXcs_rejectDuplicateItems items

theorem onlyXcs_rejectDuplicateMembers : ∀ (members : Members) (keys : List JsString),
    OnlyXcs (rejectDuplicateMembers members keys)
  | [], _ => onlyXcs_ok _
  | (key, v) :: members, keys => by
      have hrest := (onlyXcs_rejectDuplicateObjectKeys v).bind fun _ _ =>
        onlyXcs_rejectDuplicateMembers members (key :: keys)
      unfold rejectDuplicateMembers
      split_ifs
      · exact (onlyXcs_failXcs _ _ _ _).bind fun _ _ => hrest
      · exact hrest

end

/-- `parseJson` throws nothing but errors of the protocol: where the syntax tree was found,
`JSON.parse` does not throw. -/
theorem onlyXcs_parseJson (text : JsString) : OnlyXcs (parseJson text) := by
  rw [parseJson]
  cases hroot : parseText text with
  | none => exact onlyXcs_failXcs _ _ _ _
  | some root =>
      have hparse : jsonParse text = some (materialize root) := by rw [jsonParse, hroot]; rfl
      refine (onlyXcs_rejectDuplicateObjectKeys root).bind fun _ _ => ?_
      rw [hparse]
      exact (onlyXcs_assertJsonValue _).bind fun _ _ => onlyXcs_ok _

/-- `canonicalJson` throws nothing else either, unless the serialiser refuses a lone surrogate. -/
theorem onlyXcs_canonicalJson {P : Platform} {v : JsValue}
    (h : P.escapesLoneSurrogates = true ∨ v.allStrings isWellFormed = true) :
    OnlyXcs (canonicalJson P v) := by
  refine (onlyXcs_assertJsonValue v).bind fun _ _ => ?_
  unfold canonicalizeRfc8785
  rw [if_pos (Bool.or_eq_true _ _ ▸ h)]
  exact onlyXcs_ok _

end Core
end Xcs
