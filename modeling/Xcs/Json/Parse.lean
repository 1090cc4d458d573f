import Xcs.Js.Value

/-!
# JSON text

The grammar of ECMA-404, as a strict parser reads it: no comments, no trailing commas, no content
after the value.  The two parsers the program runs on one text agree on it, so one definition
stands for both.  `parseText` is the syntax tree: the members of an object in the order of the
text, repeated keys included.  `JSON.parse` builds an object from such members, where a repeated
key keeps its first place and takes its last value, and where the keys that are array indices come
first in numerical order.

* `parseText` is the tree, `jsonParse` the value.
* `canon_materialize` says that building the objects changes nothing but the order of members when
  no key is repeated.
-/

namespace Xcs
namespace Json

open Js

/-! ## Lexical structure -/

/-- Space, tab, line feed, carriage return. -/
def isWhitespace (u : CodeUnit) : Bool :=
  u == 0x20 || u == 0x09 || u == 0x0a || u == 0x0d

/-- The text without leading whitespace. -/
def skipWhitespace : JsString → JsString
  | [] => []
  | u :: rest => if isWhitespace u then skipWhitespace rest else u :: rest

/-- The text after a literal. -/
def stripLiteral : JsString → JsString → Option JsString
  | [], s => some s
  | _ :: _, [] => none
  | u :: pattern, v :: s => if u == v then stripLiteral pattern s else none

/-- The unit a one-letter escape denotes. -/
def simpleEscape (u : CodeUnit) : Option CodeUnit :=
  if u == 0x22 || u == 0x5c || u == 0x2f then some u
  else if u == 0x62 then some 0x08
  else if u == 0x66 then some 0x0c
  else if u == 0x6e then some 0x0a
  else if u == 0x72 then some 0x0d
  else if u == 0x74 then some 0x09
  else none

/-- The unit four hexadecimal digits denote. -/
def unicodeEscape (a b c d : CodeUnit) : Option CodeUnit :=
  match hexValue a, hexValue b, hexValue c, hexValue d with
  | some a, some b, some c, some d => some (a * 0x1000 + b * 0x100 + c * 0x10 + d).toUInt16
  | _, _, _, _ => none

/-- A string after its opening quote, and the text after its closing quote. -/
def parseString : JsString → Option (JsString × JsString)
  | [] => none
  | [u] => if u == 0x22 then some ([], []) else none
  | u :: e :: rest =>
      if u == 0x22 then some ([], e :: rest)
      else if u < 0x20 then none
      else if u == 0x5c then
        if e == 0x75 then
          match rest with
          | a :: b :: c :: d :: rest =>
              match unicodeEscape a b c d, parseString rest with
              | some v, some (s, tail) => some (v :: s, tail)
              | _, _ => none
          | _ => none
        else
          match simpleEscape e, parseString rest with
          | some v, some (s, tail) => some (v :: s, tail)
          | _, _ => none
      else
        match parseString (e :: rest) with
        | some (s, tail) => some (u :: s, tail)
        | none => none

/-- A run of decimal digits, possibly empty. -/
def spanDigits : JsString → List ℕ × JsString
  | [] => ([], [])
  | u :: rest =>
      if isDigit u then ((u.toNat - 0x30) :: (spanDigits rest).1, (spanDigits rest).2)
      else ([], u :: rest)

/-- The integer part of a number: a single zero, or digits without a leading zero. -/
def parseInteger : JsString → Option (List ℕ × JsString)
  | [] => none
  | u :: rest =>
      if u == 0x30 then some ([0], rest)
      else if isDigit u then some (spanDigits (u :: rest))
      else none

/-- The digits after a decimal point; none where there is no point. -/
def parseFraction : JsString → Option (List ℕ × JsString)
  | [] => some ([], [])
  | u :: rest =>
      if u == 0x2e then
        match spanDigits rest with
        | ([], _) => none
        | (d :: ds, tail) => some (d :: ds, tail)
      else some ([], u :: rest)

/-- The digits of an exponent after its sign. -/
def parseExponentDigits (negative : Bool) (s : JsString) : Option (ℤ × JsString) :=
  match spanDigits s with
  | ([], _) => none
  | (d :: ds, tail) =>
      some (if negative then -(ofDigits (d :: ds) : ℤ) else ofDigits (d :: ds), tail)

/-- The exponent of a number; zero where there is none. -/
def parseExponent : JsString → Option (ℤ × JsString)
  | [] => some (0, [])
  | u :: rest =>
      if u == 0x65 || u == 0x45 then
        match rest with
        | [] => none
        | v :: tail =>
            if v == 0x2d then parseExponentDigits true tail
            else if v == 0x2b then parseExponentDigits false tail
            else parseExponentDigits false (v :: tail)
      else some (0, u :: rest)

/-- A number without its sign. -/
def parseUnsigned (negative : Bool) (s : JsString) : Option (JsNumber × JsString) := do
  let (integer, s) ← parseInteger s
  let (fraction, s) ← parseFraction s
  let (exponent, s) ← parseExponent s
  pure (JsNumber.ofDecimal negative (ofDigits (integer ++ fraction))
    (exponent - fraction.length), s)

/-- A number. -/
def parseNumber : JsString → Option (JsNumber × JsString)
  | [] => none
  | u :: rest => if u == 0x2d then parseUnsigned true rest else parseUnsigned false (u :: rest)

/-! ## Values -/

mutual

/-- A value and the text after it. -/
def parseValue : ℕ → JsString → Option (JsValue × JsString)
  | 0, _ => none
  | fuel + 1, s =>
      match skipWhitespace s with
      | [] => none
      | u :: rest =>
          if u == 0x22 then (parseString rest).map fun p => (.str p.1, p.2)
          else if u == 0x5b then
            match skipWhitespace rest with
            | [] => none
            | v :: rest =>
                if v == 0x5d then some (.arr [], rest)
                else
                  match parseValue fuel (v :: rest) with
                  | none => none
                  | some (item, rest) =>
                      (parseItems fuel rest).map fun p => (.arr (item :: p.1), p.2)
          else if u == 0x7b then
            match skipWhitespace rest with
            | [] => none
            | v :: rest =>
                if v == 0x7d then some (.obj [], rest)
                else
                  match parseMember fuel (v :: rest) with
                  | none => none
                  | some (m, rest) =>
                      (parseMembers fuel rest).map fun p => (.obj (m :: p.1), p.2)
          else if u == 0x74 then (stripLiteral (js "rue") rest).map fun r => (.bool true, r)
          else if u == 0x66 then (stripLiteral (js "alse") rest).map fun r => (.bool false, r)
          else if u == 0x6e then (stripLiteral (js "ull") rest).map fun r => (.null, r)
          else (parseNumber (u :: rest)).map fun p => (.num p.1, p.2)

/-- The items of an array after one of them. -/
def parseItems : ℕ → JsString → Option (List JsValue × JsString)
  | 0, _ => none
  | fuel + 1, s =>
      match skipWhitespace s with
      | [] => none
      | u :: rest =>
          if u == 0x5d then some ([], rest)
          else if u == 0x2c then
            match parseValue fuel rest with
            | none => none
            | some (item, rest) => (parseItems fuel rest).map fun p => (item :: p.1, p.2)
          else none

/-- A key, a colon and a value. -/
def parseMember : ℕ → JsString → Option ((JsString × JsValue) × JsString)
  | 0, _ => none
  | fuel + 1, s =>
      match skipWhitespace s with
      | [] => none
      | u :: rest =>
          if u == 0x22 then
            match parseString rest with
            | none => none
            | some (key, rest) =>
                match skipWhitespace rest with
                | [] => none
                | v :: rest =>
                    if v == 0x3a then (parseValue fuel rest).map fun p => ((key, p.1), p.2)
                    else none
          else none

/-- The members of an object after one of them. -/
def parseMembers : ℕ → JsString → Option (Members × JsString)
  | 0, _ => none
  | fuel + 1, s =>
      match skipWhitespace s with
      | [] => none
      | u :: rest =>
          if u == 0x7d then some ([], rest)
          else if u == 0x2c then
            match parseMember fuel rest with
            | none => none
            | some (m, rest) => (parseMembers fuel rest).map fun p => (m :: p.1, p.2)
          else none

end

/-- The syntax tree of a text.  Every call of the parser consumes a unit of the text, so the fuel
lasts. -/
def parseText (text : JsString) : Option JsValue :=
  match parseValue (2 * text.length + 1) text with
  | none => none
  | some (tree, rest) => if (skipWhitespace rest).isEmpty then some tree else none

/-! ## Objects -/

/-- `object[key] = value` on the members of an object: a known key keeps its place. -/
def setMember (members : Members) (m : JsString × JsValue) : Members :=
  match members with
  | [] => [m]
  | n :: members => if n.1 == m.1 then m :: members else n :: setMember members m

/-- The array index a key denotes: the decimal form of a natural below `2^32 - 1`. -/
def arrayIndex (key : JsString) : Option ℕ :=
  match parseInteger key with
  | some (ds, []) => if ofDigits ds < 4294967295 then some (ofDigits ds) else none
  | _ => none

/-- The order in which an object lists its members: array indices first, by value. -/
def propertyLe (a b : JsString × JsValue) : Prop :=
  match arrayIndex a.1, arrayIndex b.1 with
  | some i, some j => i ≤ j
  | none, some _ => False
  | _, none => True

instance : DecidableRel propertyLe := fun a b => by
  unfold propertyLe
  split <;> infer_instance

/-- The members of an object that is filled with a list of members. -/
def objectMembers (members : Members) : Members :=
  (members.foldl setMember []).insertionSort propertyLe

mutual

/-- The value a syntax tree denotes. -/
def materialize : JsValue → JsValue
  | .arr items => .arr (materializeItems items)
  | .obj members => .obj (objectMembers (materializeMembers members))
  | .undefined => .undefined
  | .null => .null
  | .bool b => .bool b
  | .num n => .num n
  | .str s => .str s

def materializeItems : List JsValue → List JsValue
  | [] => []
  | v :: items => materialize v :: materializeItems items

def materializeMembers : Members → Members
  | [] => []
  | (k, v) :: members => (k, materialize v) :: materializeMembers members

end

/-- `JSON.parse`; `none` is a `SyntaxError`. -/
def jsonParse (text : JsString) : Option JsValue :=
  (parseText text).map materialize

theorem materializeItems_eq : ∀ items, materializeItems items = items.map materialize
  | [] => rfl
  | v :: items => by rw [materializeItems, materializeItems_eq items, List.map_cons]

theorem materializeMembers_eq : ∀ members : Members,
    materializeMembers members = members.map fun m => (m.1, materialize m.2)
  | [] => rfl
  | (k, v) :: members => by rw [materializeMembers, materializeMembers_eq members, List.map_cons]

@[simp] theorem materialize_arr (items : List JsValue) :
    materialize (.arr items) = .arr (items.map materialize) := by
  rw [materialize, materializeItems_eq]

@[simp] theorem materialize_obj (members : Members) :
    materialize (.obj members)
      = .obj (objectMembers (members.map fun m => (m.1, materialize m.2))) := by
  rw [materialize, materializeMembers_eq]

/-- A key that is not there is appended. -/
theorem setMember_of_not_mem {m : JsString × JsValue} : ∀ {members : Members},
    m.1 ∉ members.map (·.1) → setMember members m = members ++ [m]
  | [], _ => rfl
  | n :: members, h => by
      rw [List.map_cons, List.mem_cons, not_or] at h
      have hne : (n.1 == m.1) = false := beq_eq_false_iff_ne.mpr (Ne.symm h.1)
      rw [setMember, hne, setMember_of_not_mem h.2]
      rfl

theorem foldl_setMember (xs : Members) : ∀ (ys : Members),
    ((xs ++ ys).map (·.1)).Nodup → ys.foldl setMember xs = xs ++ ys := by
  intro ys
  induction ys generalizing xs with
  | nil => intro _; simp
  | cons m ys ih =>
      intro h
      have hm : m.1 ∉ xs.map (·.1) := by
        rw [List.map_append, List.nodup_append] at h
        intro hmem
        exact h.2.2 _ hmem _ (List.mem_map_of_mem (List.mem_cons_self ..)) rfl
      rw [List.foldl_cons, setMember_of_not_mem hm, ih (xs ++ [m]) (by simpa using h)]
      simp

/-- Members without a repeated key are all there, in some order. -/
theorem objectMembers_perm {members : Members} (h : (members.map (·.1)).Nodup) :
    (objectMembers members).Perm members := by
  rw [objectMembers, foldl_setMember [] members (by simpa using h)]
  exact List.perm_insertionSort _ _

/-- **Building the objects keeps the value.**  When no key is repeated, the value differs from the
tree in the order of members only. -/
theorem canon_materialize {v : JsValue} (h : v.distinctKeys = true) :
    (materialize v).canon = v.canon := by
  induction v using JsValue.induct with
  | arr items ih =>
      rw [JsValue.distinctKeys_arr, List.all_eq_true] at h
      rw [materialize_arr, JsValue.canon_arr, JsValue.canon_arr, List.map_map]
      exact congrArg _ (List.map_congr_left fun v hv => ih v hv (h v hv))
  | obj members ih =>
      rw [JsValue.distinctKeys_obj, Bool.and_eq_true, decide_eq_true_eq, List.all_eq_true] at h
      have hkeys : ((members.map fun m => (m.1, materialize m.2)).map (·.1)).Nodup := by
        rw [List.map_map]
        exact h.1
      have hperm := (objectMembers_perm hkeys).map fun m => (m.1, m.2.canon)
      rw [materialize_obj, JsValue.canon_obj, JsValue.canon_obj,
        sortMembers_eq_of_perm hperm ?_, List.map_map]
      · exact congrArg _ (congrArg _ (List.map_congr_left fun m hm => by
          simp [ih m hm (h.2 m hm)]))
      · rw [List.map_map]
        exact ((objectMembers_perm hkeys).map _).nodup_iff.mpr hkeys
  | _ => rfl

theorem mem_setMember {members : Members} {m n : JsString × JsValue}
    (h : n ∈ setMember members m) : n ∈ members ∨ n = m := by
  induction members with
  | nil => exact Or.inr (List.mem_singleton.mp h)
  | cons x members ih =>
      rw [setMember] at h
      split at h
      · rcases List.mem_cons.mp h with rfl | h
        · exact Or.inr rfl
        · exact Or.inl (List.mem_cons_of_mem _ h)
      · rcases List.mem_cons.mp h with rfl | h
        · exact Or.inl (List.mem_cons_self ..)
        · rcases ih h with h | h
          · exact Or.inl (List.mem_cons_of_mem _ h)
          · exact Or.inr h

theorem nodup_setMember {members : Members} (m : JsString × JsValue)
    (h : (members.map (·.1)).Nodup) : ((setMember members m).map (·.1)).Nodup := by
  induction members with
  | nil => simp [setMember]
  | cons n members ih =>
      rw [List.map_cons, List.nodup_cons] at h
      by_cases hn : n.1 = m.1
      · rw [setMember, if_pos (beq_iff_eq.mpr hn), List.map_cons, List.nodup_cons, ← hn]
        exact h
      · rw [setMember, if_neg (by simpa using hn), List.map_cons, List.nodup_cons]
        refine ⟨fun hk => ?_, ih h.2⟩
        obtain ⟨x, hx, hkey⟩ := List.mem_map.mp hk
        rcases mem_setMember hx with hx | rfl
        · exact h.1 (hkey ▸ List.mem_map_of_mem hx)
        · exact hn hkey.symm

theorem mem_objectMembers {members : Members} {m : JsString × JsValue}
    (h : m ∈ objectMembers members) : m ∈ members := by
  have hfold : ∀ (ms xs : Members), m ∈ ms.foldl setMember xs → m ∈ xs ∨ m ∈ ms := by
    intro ms
    induction ms with
    | nil => exact fun xs h => Or.inl h
    | cons n ms ih =>
        intro xs h
        rcases ih _ h with h | h
        · rcases mem_setMember h with h | rfl
          · exact Or.inl h
          · exact Or.inr (List.mem_cons_self ..)
        · exact Or.inr (List.mem_cons_of_mem _ h)
  have hmem : m ∈ members.foldl setMember [] := (List.perm_insertionSort _ _).mem_iff.mp h
  rcases hfold members [] hmem with h | h
  · exact absurd h List.not_mem_nil
  · exact h

theorem nodup_objectMembers (members : Members) : ((objectMembers members).map (·.1)).Nodup := by
  have hfold : ∀ (ms xs : Members), (xs.map (·.1)).Nodup →
      ((ms.foldl setMember xs).map (·.1)).Nodup := by
    intro ms
    induction ms with
    | nil => exact fun xs h => h
    | cons m ms ih => exact fun xs h => ih _ (nodup_setMember m h)
  rw [objectMembers, ((List.perm_insertionSort _ _).map _).nodup_iff]
  exact hfold members [] List.nodup_nil

/-- No object that `JSON.parse` builds has a repeated key. -/
theorem distinctKeys_materialize (v : JsValue) : (materialize v).distinctKeys = true := by
  induction v using JsValue.induct with
  | arr items ih =>
      rw [materialize_arr, JsValue.distinctKeys_arr, List.all_map, List.all_eq_true]
      exact ih
  | obj members ih =>
      rw [materialize_obj, JsValue.distinctKeys_obj, Bool.and_eq_true, decide_eq_true_eq,
        List.all_eq_true]
      refine ⟨nodup_objectMembers _, fun m hm => ?_⟩
      obtain ⟨n, hn, rfl⟩ := List.mem_map.mp (mem_objectMembers hm)
      exact ih n hn
  | _ => rfl

/-- Building the objects adds no string. -/
theorem allStrings_materialize {p : JsString → Bool} {v : JsValue} (h : v.allStrings p = true) :
    (materialize v).allStrings p = true := by
  induction v using JsValue.induct with
  | arr items ih =>
      rw [JsValue.allStrings_arr, List.all_eq_true] at h
      rw [materialize_arr, JsValue.allStrings_arr, List.all_map, List.all_eq_true]
      exact fun v hv => ih v hv (h v hv)
  | obj members ih =>
      rw [JsValue.allStrings_obj, List.all_eq_true] at h
      rw [materialize_obj, JsValue.allStrings_obj, List.all_eq_true]
      intro m hm
      obtain ⟨n, hn, rfl⟩ := List.mem_map.mp (mem_objectMembers hm)
      have hboth := h n hn
      rw [Bool.and_eq_true] at hboth ⊢
      exact ⟨hboth.1, ih n hn hboth.2⟩
  | _ => exact h

/-- Building the objects keeps a JSON value a JSON value. -/
theorem isJson_materialize {v : JsValue} (h : v.isJson = true) : (materialize v).isJson = true := by
  induction v using JsValue.induct with
  | arr items ih =>
      rw [JsValue.isJson_arr, List.all_eq_true] at h
      rw [materialize_arr, JsValue.isJson_arr, List.all_map, List.all_eq_true]
      exact fun v hv => ih v hv (h v hv)
  | obj members ih =>
      rw [JsValue.isJson_obj, List.all_eq_true] at h
      rw [materialize_obj, JsValue.isJson_obj, List.all_eq_true]
      intro m hm
      obtain ⟨n, hn, rfl⟩ := List.mem_map.mp (mem_objectMembers hm)
      exact ih n hn (h n hn)
  | _ => exact h

end Json
end Xcs
