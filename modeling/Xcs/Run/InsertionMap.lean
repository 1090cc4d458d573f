import Mathlib.Data.List.Nodup
import Mathlib.Data.List.Perm.Subperm

/-!
# Maps in the order of insertion

A map that is enumerated in the order in which its keys came in.  Writing to a key that is there
changes the value and leaves the key where it stands; a new key goes to the end.

* `get_set`, `get_delete` and `get_retain_eq_some_iff` say what is in the map after a write.
* `AgreesUpTo` compares the map with a total table that never forgets.  The map may have lost
  entries, as long as they are stale; `AgreesUpTo.set` and `AgreesUpTo.of_lost` are the rules for a
  write to both and for a loss.
-/

namespace Xcs

variable {κ α : Type*}

/-- A finite map with its entries in the order of insertion. -/
structure InsertionMap (κ α : Type*) where
  entries : List (κ × α)
  nodup : (entries.map Prod.fst).Nodup

namespace InsertionMap

/-- The map without entries. -/
def empty : InsertionMap κ α := ⟨[], List.nodup_nil⟩

/-- The keys, the one that came in first at the front. -/
def keys (m : InsertionMap κ α) : List κ := m.entries.map Prod.fst

def size (m : InsertionMap κ α) : ℕ := m.entries.length

@[simp] theorem size_empty : (empty : InsertionMap κ α).size = 0 := rfl

theorem length_keys (m : InsertionMap κ α) : m.keys.length = m.size :=
  List.length_map ..

/-- The entries that pass a test. -/
def retain (m : InsertionMap κ α) (p : κ × α → Bool) : InsertionMap κ α where
  entries := m.entries.filter p
  nodup := m.nodup.sublist (List.filter_sublist.map Prod.fst)

theorem size_retain_le (m : InsertionMap κ α) (p : κ × α → Bool) : (m.retain p).size ≤ m.size :=
  List.length_filter_le ..

theorem retain_congr {m : InsertionMap κ α} {p q : κ × α → Bool}
    (h : ∀ e ∈ m.entries, p e = q e) : m.retain p = m.retain q := by
  unfold retain
  congr 1
  exact List.filter_congr h

theorem retain_eq_self {m : InsertionMap κ α} {p : κ × α → Bool}
    (h : ∀ e ∈ m.entries, p e = true) : m.retain p = m := by
  unfold retain
  congr 1
  exact List.filter_eq_self.mpr h

theorem retain_retain (m : InsertionMap κ α) (p q : κ × α → Bool) :
    (m.retain p).retain q = m.retain fun e => p e && q e := by
  unfold retain
  congr 1
  rw [List.filter_filter]
  exact List.filter_congr fun e _ => Bool.and_comm _ _

/-- A map that loses no entry is the map it was. -/
theorem retain_eq_self_of_size_le {m : InsertionMap κ α} {p : κ × α → Bool}
    (h : m.size ≤ (m.retain p).size) : m.retain p = m :=
  retain_eq_self (List.length_filter_eq_length_iff.mp (Nat.le_antisymm (size_retain_le m p) h))

variable [DecidableEq κ]

/-- The value of a key. -/
def get (m : InsertionMap κ α) (k : κ) : Option α := m.entries.lookup k

/-- A value for a key, which keeps its place when it has one. -/
def set (m : InsertionMap κ α) (k : κ) (a : α) : InsertionMap κ α where
  entries :=
    if k ∈ m.keys then m.entries.map fun e => if e.1 = k then (k, a) else e
    else m.entries ++ [(k, a)]
  nodup := by
    by_cases hk : k ∈ m.keys
    · have hkeys : (m.entries.map fun e => if e.1 = k then (k, a) else e).map Prod.fst
          = m.entries.map Prod.fst := by
        rw [List.map_map]
        refine List.map_congr_left fun e _ => ?_
        by_cases he : e.1 = k
        · simp [he]
        · simp [he]
      rw [if_pos hk, hkeys]
      exact m.nodup
    · rw [if_neg hk, List.map_append]
      refine List.nodup_append.mpr ⟨m.nodup, List.nodup_singleton _, ?_⟩
      intro x hx y hy hxy
      rw [List.map_singleton, List.mem_singleton] at hy
      have hxk : x = k := hxy.trans hy
      exact hk (hxk ▸ hx)

theorem entries_set_of_mem {m : InsertionMap κ α} {k : κ} (h : k ∈ m.keys) (a : α) :
    (m.set k a).entries = m.entries.map fun e => if e.1 = k then (k, a) else e :=
  if_pos h

theorem entries_set_of_notMem {m : InsertionMap κ α} {k : κ} (h : k ∉ m.keys) (a : α) :
    (m.set k a).entries = m.entries ++ [(k, a)] :=
  if_neg h

/-- The map without a key. -/
def delete (m : InsertionMap κ α) (k : κ) : InsertionMap κ α :=
  m.retain fun e => e.1 ≠ k

/-! ## What is in the map -/

@[simp] theorem get_empty (k : κ) : (empty : InsertionMap κ α).get k = none := rfl

theorem lookup_eq_some_iff {l : List (κ × α)} (hl : (l.map Prod.fst).Nodup) {k : κ} {a : α} :
    l.lookup k = some a ↔ (k, a) ∈ l := by
  induction l with
  | nil => simp
  | cons e l ih =>
    rw [List.map_cons, List.nodup_cons] at hl
    by_cases hk : k = e.1
    · have hnot : (k, a) ∉ l := fun h => hl.1 (hk ▸ List.mem_map_of_mem (f := Prod.fst) h)
      rw [List.lookup_cons, beq_iff_eq.mpr hk, List.mem_cons]
      dsimp only
      constructor
      · intro h
        exact .inl (Prod.ext hk (Option.some.inj h).symm)
      · rintro (h | h)
        · rw [← h]
        · exact absurd h hnot
    · rw [List.lookup_cons, beq_eq_false_iff_ne.mpr hk, List.mem_cons]
      dsimp only
      rw [ih hl.2]
      constructor
      · exact .inr
      · rintro (h | h)
        · exact absurd (congrArg Prod.fst h) hk
        · exact h

theorem get_eq_some_iff {m : InsertionMap κ α} {k : κ} {a : α} :
    m.get k = some a ↔ (k, a) ∈ m.entries :=
  lookup_eq_some_iff m.nodup

theorem get_ne_none_iff {m : InsertionMap κ α} {k : κ} : m.get k ≠ none ↔ k ∈ m.keys := by
  rw [Option.ne_none_iff_exists']
  constructor
  · rintro ⟨a, ha⟩
    exact List.mem_map_of_mem (f := Prod.fst) (get_eq_some_iff.mp ha)
  · intro h
    obtain ⟨e, he, rfl⟩ := List.mem_map.mp h
    exact ⟨e.2, get_eq_some_iff.mpr he⟩

theorem get_eq_none_iff {m : InsertionMap κ α} {k : κ} : m.get k = none ↔ k ∉ m.keys := by
  rw [← get_ne_none_iff, not_not]

theorem get_retain_eq_some_iff {m : InsertionMap κ α} {p : κ × α → Bool} {k : κ} {a : α} :
    (m.retain p).get k = some a ↔ m.get k = some a ∧ p (k, a) = true := by
  rw [get_eq_some_iff, get_eq_some_iff, retain, List.mem_filter]

theorem get_delete (m : InsertionMap κ α) (k j : κ) :
    (m.delete k).get j = if j = k then none else m.get j := by
  ext a
  rw [delete, get_retain_eq_some_iff]
  by_cases hj : j = k
  · simp [hj]
  · simp [hj]

theorem get_set (m : InsertionMap κ α) (k j : κ) (a : α) :
    (m.set k a).get j = if j = k then some a else m.get j := by
  ext b
  rw [get_eq_some_iff]
  by_cases hk : k ∈ m.keys
  · rw [entries_set_of_mem hk, List.mem_map]
    by_cases hj : j = k
    · rw [if_pos hj]
      constructor
      · rintro ⟨e, he, hb⟩
        by_cases hek : e.1 = k
        · rw [if_pos hek, Prod.mk.injEq] at hb
          rw [hb.2]
        · rw [if_neg hek] at hb
          exact absurd (hb ▸ hj) hek
      · intro hb
        obtain ⟨e, he, hek⟩ := List.mem_map.mp hk
        refine ⟨e, he, ?_⟩
        rw [if_pos hek, hj, Option.some.inj hb]
    · rw [if_neg hj, get_eq_some_iff]
      constructor
      · rintro ⟨e, he, hb⟩
        by_cases hek : e.1 = k
        · rw [if_pos hek, Prod.mk.injEq] at hb
          exact absurd hb.1.symm hj
        · rw [if_neg hek] at hb
          exact hb ▸ he
      · intro hb
        exact ⟨(j, b), hb, if_neg hj⟩
  · rw [entries_set_of_notMem hk, List.mem_append, List.mem_singleton, Prod.mk.injEq]
    by_cases hj : j = k
    · rw [if_pos hj]
      constructor
      · rintro (h | ⟨-, h⟩)
        · exact absurd (hj ▸ List.mem_map_of_mem (f := Prod.fst) h) hk
        · rw [h]
      · intro h
        exact .inr ⟨hj, (Option.some.inj h).symm⟩
    · rw [if_neg hj, get_eq_some_iff]
      constructor
      · rintro (h | h)
        · exact h
        · exact absurd h.1 hj
      · exact .inl

theorem keys_delete_sublist (m : InsertionMap κ α) (k : κ) : (m.delete k).keys.Sublist m.keys :=
  List.filter_sublist.map Prod.fst

theorem keys_set_of_mem {m : InsertionMap κ α} {k : κ} (h : k ∈ m.keys) (a : α) :
    (m.set k a).keys = m.keys := by
  rw [keys, entries_set_of_mem h, List.map_map]
  refine List.map_congr_left fun e _ => ?_
  by_cases he : e.1 = k
  · simp [he]
  · simp [he]

theorem keys_set_of_notMem {m : InsertionMap κ α} {k : κ} (h : k ∉ m.keys) (a : α) :
    (m.set k a).keys = m.keys ++ [k] := by
  rw [keys, entries_set_of_notMem h, List.map_append]
  rfl

theorem size_set_of_some {m : InsertionMap κ α} {k : κ} {b : α} (h : m.get k = some b) (a : α) :
    (m.set k a).size = m.size := by
  have hk : k ∈ m.keys := get_ne_none_iff.mp (by rw [h]; exact Option.some_ne_none b)
  rw [size, entries_set_of_mem hk, List.length_map, size]

theorem size_set_of_none {m : InsertionMap κ α} {k : κ} (h : m.get k = none) (a : α) :
    (m.set k a).size = m.size + 1 := by
  rw [size, entries_set_of_notMem (get_eq_none_iff.mp h), List.length_append, size,
    List.length_singleton]

/-! ## A table that never forgets -/

/-- The map holds what the table holds, but for stale entries that it may have lost. -/
def AgreesUpTo (stale : κ → α → Prop) (m : InsertionMap κ α) (c : κ → Option α) : Prop :=
  ∀ k, m.get k = c k ∨ m.get k = none ∧ ∃ a, c k = some a ∧ stale k a

variable {stale stale' : κ → α → Prop} {m m' : InsertionMap κ α} {c : κ → Option α}

theorem AgreesUpTo.empty : AgreesUpTo stale (empty : InsertionMap κ α) fun _ => none :=
  fun _ => .inl rfl

/-- What the map holds, the table holds. -/
theorem AgreesUpTo.eq_some (h : AgreesUpTo stale m c) {k : κ} {a : α} (ha : m.get k = some a) :
    c k = some a := by
  rcases h k with hk | ⟨hk, -⟩
  · rw [← hk, ha]
  · rw [hk] at ha
    exact absurd ha.symm (Option.some_ne_none a)

theorem AgreesUpTo.mono (h : AgreesUpTo stale m c) (hle : ∀ k a, stale k a → stale' k a) :
    AgreesUpTo stale' m c :=
  fun k => (h k).imp_right fun ⟨hk, a, ha, hs⟩ => ⟨hk, a, ha, hle k a hs⟩

/-- Stale entries may go. -/
theorem AgreesUpTo.of_lost (h : AgreesUpTo stale m c)
    (hlost : ∀ k, m'.get k = m.get k ∨ m'.get k = none ∧ ∀ a, m.get k = some a → stale k a) :
    AgreesUpTo stale m' c := by
  intro k
  rcases hlost k with hk | ⟨hk, hstale⟩
  · rw [hk]
    exact h k
  · rcases h k with hc | hc
    · cases ha : m.get k with
      | none => exact .inl (by rw [hk, ← hc, ha])
      | some a => exact .inr ⟨hk, a, by rw [← hc, ha], hstale a ha⟩
    · exact .inr ⟨hk, hc.2⟩

/-- A write to both. -/
theorem AgreesUpTo.set (h : AgreesUpTo stale m c) (k : κ) (a : α) :
    AgreesUpTo stale (m.set k a) fun j => if j = k then some a else c j := by
  intro j
  dsimp only
  rw [get_set]
  by_cases hj : j = k
  · rw [if_pos hj, if_pos hj]
    exact .inl rfl
  · rw [if_neg hj, if_neg hj]
    exact h j

end InsertionMap

end Xcs
