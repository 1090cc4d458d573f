import Xcs.Json.RoundTrip

/-!
# Writing what was read

A value that `JSON.parse` made has nothing undefined in it, but it may hold an infinity or a
negative zero, and `JSON.stringify` writes these as `null` and `0`.  `written` is the value that the
text then says.

* `noUndefined_jsonParse`: nothing undefined is ever parsed.
* `jsonParse_render_written`: the text of such a value reads back as what was written.
* `exists_jsonParse_render_obj` says what the members of an object read back as.
-/

namespace Xcs
namespace Json

open Js

/-! ## Nothing undefined is parsed -/

/-- Nothing in the value is `undefined`. -/
def noUndefined : JsValue → Bool :=
  JsValue.every fun
    | .undefined => false
    | _ => true

@[simp] theorem noUndefined_arr (items : List JsValue) :
    noUndefined (.arr items) = items.all noUndefined := by
  simp [noUndefined]

@[simp] theorem noUndefined_obj (members : Members) :
    noUndefined (.obj members) = members.all fun m => noUndefined m.2 := by
  simp [noUndefined]

/-- The parser of values makes nothing undefined, when the parsers it calls do not. -/
theorem noUndefined_parseValue {fuel : ℕ}
    (hvalue : ∀ s v r, parseValue fuel s = some (v, r) → noUndefined v = true)
    (hitems : ∀ s items r, parseItems fuel s = some (items, r) → items.all noUndefined = true)
    (hmember : ∀ s m r, parseMember fuel s = some (m, r) → noUndefined m.2 = true)
    (hmembers : ∀ s members r, parseMembers fuel s = some (members, r) →
      (members.all fun m => noUndefined m.2) = true)
    {s r : JsString} {v : JsValue} (h : parseValue (fuel + 1) s = some (v, r)) :
    noUndefined v = true := by
  rw [parseValue] at h
  cases hs : skipWhitespace s with
  | nil =>
      rw [hs] at h
      cases h
  | cons u rest =>
      rw [hs] at h
      dsimp only at h
      split_ifs at h
      · obtain ⟨p, -, hp⟩ := Option.map_eq_some_iff.mp h
        cases hp
        rfl
      · split at h
        · cases h
        · split_ifs at h
          · cases h
            rfl
          · split at h
            · cases h
            · rename_i item rest' hitem
              obtain ⟨p, hp, heq⟩ := Option.map_eq_some_iff.mp h
              cases heq
              rw [noUndefined_arr, List.all_cons, hvalue _ _ _ hitem, hitems _ _ _ hp]
              rfl
      · split at h
        · cases h
        · split_ifs at h
          · cases h
            rfl
          · split at h
            · cases h
            · rename_i m rest' hm
              obtain ⟨p, hp, heq⟩ := Option.map_eq_some_iff.mp h
              cases heq
              rw [noUndefined_obj, List.all_cons, hmember _ _ _ hm, hmembers _ _ _ hp]
              rfl
      all_goals
        obtain ⟨p, -, hp⟩ := Option.map_eq_some_iff.mp h
        cases hp
        rfl

/-- The four parsers, one level of fuel after the other. -/
theorem noUndefined_parsers (fuel : ℕ) :
    (∀ s v r, parseValue fuel s = some (v, r) → noUndefined v = true) ∧
    (∀ s items r, parseItems fuel s = some (items, r) → items.all noUndefined = true) ∧
    (∀ s m r, parseMember fuel s = some (m, r) → noUndefined m.2 = true) ∧
    (∀ s members r, parseMembers fuel s = some (members, r) →
      (members.all fun m => noUndefined m.2) = true) := by
  induction fuel with
  | zero =>
      refine ⟨?_, ?_, ?_, ?_⟩ <;>
        · intro s a r h
          cases h
  | succ fuel ih =>
      obtain ⟨hvalue, hitems, hmember, hmembers⟩ := ih
      refine ⟨fun s v r => noUndefined_parseValue hvalue hitems hmember hmembers, ?_, ?_, ?_⟩
      · intro s items r h
        rw [parseItems] at h
        split at h
        · cases h
        · split_ifs at h
          · cases h
            rfl
          · split at h
            · cases h
            · rename_i item rest hitem
              obtain ⟨p, hp, heq⟩ := Option.map_eq_some_iff.mp h
              cases heq
              rw [List.all_cons, hvalue _ _ _ hitem, hitems _ _ _ hp]
              rfl
      · intro s m r h
        rw [parseMember] at h
        split at h
        · cases h
        · split_ifs at h
          split at h
          · cases h
          · split at h
            · cases h
            · split_ifs at h
              obtain ⟨p, hp, heq⟩ := Option.map_eq_some_iff.mp h
              cases heq
              exact hvalue _ _ _ hp
      · intro s members r h
        rw [parseMembers] at h
        split at h
        · cases h
        · split_ifs at h
          · cases h
            rfl
          · split at h
            · cases h
            · rename_i m rest hm
              obtain ⟨p, hp, heq⟩ := Option.map_eq_some_iff.mp h
              cases heq
              rw [List.all_cons, hmember _ _ _ hm, hmembers _ _ _ hp]
              rfl

theorem noUndefined_materialize {v : JsValue} (h : noUndefined v = true) :
    noUndefined (materialize v) = true := by
  induction v using JsValue.induct with
  | arr items ih =>
      rw [noUndefined_arr, List.all_eq_true] at h
      rw [materialize_arr, noUndefined_arr, List.all_map, List.all_eq_true]
      exact fun v hv => ih v hv (h v hv)
  | obj members ih =>
      rw [noUndefined_obj, List.all_eq_true] at h
      rw [materialize_obj, noUndefined_obj, List.all_eq_true]
      intro m hm
      obtain ⟨n, hn, rfl⟩ := List.mem_map.mp (mem_objectMembers hm)
      exact ih n hn (h n hn)
  | _ => exact h

/-- What `JSON.parse` makes has nothing undefined in it, and no object with a repeated key. -/
theorem noUndefined_jsonParse {text : JsString} {v : JsValue} (h : jsonParse text = some v) :
    noUndefined v = true ∧ v.distinctKeys = true := by
  obtain ⟨tree, htree, rfl⟩ := Option.map_eq_some_iff.mp h
  refine ⟨noUndefined_materialize ?_, distinctKeys_materialize tree⟩
  unfold parseText at htree
  split at htree
  · cases htree
  · rename_i hparse
    split_ifs at htree
    rw [← Option.some.inj htree]
    exact (noUndefined_parsers _).1 _ _ _ hparse

/-! ## What a text says -/

/-- The value that `JSON.stringify` writes for a number. -/
def writtenNumber : JsNumber → JsValue
  | .finite d => .num (.finite d)
  | .negZero => .num .zero
  | _ => .null

mutual

/-- The value that `JSON.stringify` writes for a value. -/
def written : JsValue → JsValue
  | .num n => writtenNumber n
  | .arr items => .arr (writtenItems items)
  | .obj members => .obj (writtenMembers members)
  | v => v

def writtenItems : List JsValue → List JsValue
  | [] => []
  | v :: items => written v :: writtenItems items

def writtenMembers : Members → Members
  | [] => []
  | (k, v) :: members => (k, written v) :: writtenMembers members

end

theorem writtenItems_eq (items : List JsValue) : writtenItems items = items.map written := by
  induction items with
  | nil => rfl
  | cons v items ih => rw [writtenItems, ih, List.map_cons]

theorem writtenMembers_eq (members : Members) :
    writtenMembers members = members.map fun m => (m.1, written m.2) := by
  induction members with
  | nil => rfl
  | cons m members ih => rw [writtenMembers, ih, List.map_cons]

theorem render_writtenNumber (n : JsNumber) : render (writtenNumber n) = numberToString n := by
  cases n with
  | negZero => decide +kernel
  | _ => rfl

mutual

/-- A value and what is written for it have one text. -/
theorem render_written : ∀ v : JsValue, render (written v) = render v
  | .undefined => rfl
  | .null => rfl
  | .bool _ => rfl
  | .num n => render_writtenNumber n
  | .str _ => rfl
  | .arr [] => rfl
  | .arr (v :: items) => by
      show 0x5b :: (render (written v) ++ renderItems (writtenItems items)) = _
      rw [render_written v, renderItems_written items]
      rfl
  | .obj [] => rfl
  | .obj ((k, v) :: members) => by
      show 0x7b :: (quote k ++ 0x3a :: (render (written v)
        ++ renderMembers (writtenMembers members))) = _
      rw [render_written v, renderMembers_written members]
      rfl

theorem renderItems_written : ∀ items, renderItems (writtenItems items) = renderItems items
  | [] => rfl
  | v :: items => by
      show 0x2c :: (render (written v) ++ renderItems (writtenItems items)) = _
      rw [render_written v, renderItems_written items]
      rfl

theorem renderMembers_written : ∀ members : Members,
    renderMembers (writtenMembers members) = renderMembers members
  | [] => rfl
  | (k, v) :: members => by
      show 0x2c :: (quote k ++ 0x3a :: (render (written v)
        ++ renderMembers (writtenMembers members))) = _
      rw [render_written v, renderMembers_written members]
      rfl

end

theorem isRenderable_written {v : JsValue} (h : noUndefined v = true) :
    isRenderable (written v) = true := by
  induction v using JsValue.induct with
  | undefined => cases h
  | num n => cases n <;> rfl
  | arr items ih =>
      rw [noUndefined_arr, List.all_eq_true] at h
      rw [written, writtenItems_eq, isRenderable_arr, List.all_map, List.all_eq_true]
      exact fun v hv => ih v hv (h v hv)
  | obj members ih =>
      rw [noUndefined_obj, List.all_eq_true] at h
      rw [written, writtenMembers_eq, isRenderable_obj, List.all_map, List.all_eq_true]
      exact fun m hm => ih m hm (h m hm)
  | _ => rfl

/-- **What was read and written reads back as it was written.** -/
theorem jsonParse_render_written {v : JsValue} (h : noUndefined v = true) :
    jsonParse (render v) = some (materialize (written v)) := by
  rw [← render_written]
  exact jsonParse_render (isRenderable_written h)

/-- Where no key is repeated, an object has the members it is filled with. -/
theorem lookup_objectMembers {members : Members} (h : (members.map (·.1)).Nodup)
    (key : JsString) : (objectMembers members).lookup key = members.lookup key := by
  ext v
  rw [JsValue.lookup_eq_some_iff_mem (nodup_objectMembers members),
    JsValue.lookup_eq_some_iff_mem h, (objectMembers_perm h).mem_iff]

/-- The members of an object, read back from its text. -/
theorem exists_jsonParse_render_obj {members : Members} (h : (members.map (·.1)).Nodup)
    (hdefined : noUndefined (.obj members) = true) :
    ∃ members', jsonParse (render (.obj members)) = some (.obj members') ∧
      ∀ key, members'.lookup key = (members.lookup key).map fun v => materialize (written v) := by
  refine ⟨objectMembers ((writtenMembers members).map fun m => (m.1, materialize m.2)), ?_, ?_⟩
  · rw [jsonParse_render_written hdefined, written, materialize_obj]
  · intro key
    have hkeys : (((writtenMembers members).map fun m => (m.1, materialize m.2)).map
        (·.1)).Nodup := by
      rw [writtenMembers_eq, List.map_map, List.map_map]
      exact h
    rw [lookup_objectMembers hkeys, writtenMembers_eq, List.map_map]
    exact JsValue.lookup_map_values (fun _ v => materialize (written v)) key members

/-! ## A member that is set -/

theorem lookup_setMember (m : JsString × JsValue) (key : JsString) :
    ∀ members : Members,
      (setMember members m).lookup key = if key = m.1 then some m.2 else members.lookup key
  | [] => by
      by_cases hkey : key = m.1
      · rw [if_pos hkey, hkey]
        exact List.lookup_cons_self
      · rw [if_neg hkey, setMember, List.lookup_cons, beq_eq_false_iff_ne.mpr hkey]
  | n :: members => by
      have ih := lookup_setMember m key members
      rw [setMember]
      by_cases hn : n.1 = m.1
      · rw [if_pos (beq_iff_eq.mpr hn), List.lookup_cons, List.lookup_cons, hn]
        by_cases hkey : key = m.1
        · rw [beq_iff_eq.mpr hkey, if_pos hkey]
        · rw [beq_eq_false_iff_ne.mpr hkey, if_neg hkey]
      · have hne : ¬(n.1 == m.1) = true := by
          rw [beq_iff_eq]
          exact hn
        rw [if_neg hne, List.lookup_cons, List.lookup_cons, ih]
        by_cases hkey : key = n.1
        · have hother : key ≠ m.1 := fun h => hn (hkey.symm.trans h)
          rw [beq_iff_eq.mpr hkey]
          exact (if_neg hother).symm
        · rw [beq_eq_false_iff_ne.mpr hkey]

theorem noUndefined_setMember {members : Members} {m : JsString × JsValue}
    (h : noUndefined (.obj members) = true) (hm : noUndefined m.2 = true) :
    noUndefined (.obj (setMember members m)) = true := by
  rw [noUndefined_obj, List.all_eq_true] at h ⊢
  intro n hn
  rcases mem_setMember hn with hn | rfl
  · exact h n hn
  · exact hm

end Json
end Xcs
