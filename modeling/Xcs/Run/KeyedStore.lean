import Mathlib.Data.List.Nodup

/-!
# Stores keyed by a field

An object store holds one entry for each value of a key that the entries carry themselves.  A write
replaces the entry with the same key, so two entries that agree on the key are the same entry.

An entry may hold a lock, or none.  Whether it does is a property of the entry alone, so a lock
changes hands only through writes: `Exclusive` says that no lock has two holders, and the rules
below say which writes keep it so.

* `mem_put` and `mem_delete` say what is in the store after a write.
* `Exclusive.put_of_free` is the rule for taking a lock, `Exclusive.put_of_held` for keeping or
  giving up one, and `Exclusive.delete` for removing a holder.
-/

namespace Xcs

variable {κ α ι : Type*}

/-- A finite set of entries, no two with the same key. -/
structure KeyedStore (key : α → κ) where
  entries : List α
  nodup : (entries.map key).Nodup

namespace KeyedStore

variable {key : α → κ}

instance : Membership α (KeyedStore key) := ⟨fun s a => a ∈ s.entries⟩

/-- The store without entries. -/
def empty : KeyedStore key := ⟨[], List.nodup_nil⟩

theorem mem_def {s : KeyedStore key} {a : α} : a ∈ s ↔ a ∈ s.entries := Iff.rfl

@[simp] theorem not_mem_empty (a : α) : a ∉ (empty : KeyedStore key) :=
  List.not_mem_nil

/-- Two entries with the same key are the same entry. -/
theorem eq_of_key_eq {s : KeyedStore key} {a b : α} (ha : a ∈ s) (hb : b ∈ s)
    (hkey : key a = key b) : a = b :=
  List.inj_on_of_nodup_map s.nodup ha hb hkey

/-- No lock is held by two entries. -/
def Exclusive (lock : α → Option ι) (s : KeyedStore key) : Prop :=
  ∀ a ∈ s, ∀ b ∈ s, ∀ l, lock a = some l → lock b = some l → a = b

theorem exclusive_empty {lock : α → Option ι} : Exclusive lock (empty : KeyedStore key) :=
  fun a ha => absurd ha (not_mem_empty a)

/-! ## Writes -/

variable [DecidableEq κ]

/-- The entry with a key. -/
def get (s : KeyedStore key) (k : κ) : Option α :=
  s.entries.find? fun a => key a = k

/-- The entries whose key is another one. -/
def delete (s : KeyedStore key) (k : κ) : KeyedStore key where
  entries := s.entries.filter fun a => key a ≠ k
  nodup := s.nodup.sublist (List.filter_sublist.map key)

/-- An entry takes the place of the one with its key. -/
def put (s : KeyedStore key) (a : α) : KeyedStore key where
  entries := a :: (s.delete (key a)).entries
  nodup := by
    refine List.nodup_cons.mpr ⟨fun h => ?_, (s.delete (key a)).nodup⟩
    obtain ⟨b, hb, hkey⟩ := List.mem_map.mp h
    exact of_decide_eq_true (List.mem_filter.mp hb).2 hkey

theorem mem_delete {s : KeyedStore key} {k : κ} {a : α} :
    a ∈ s.delete k ↔ a ∈ s ∧ key a ≠ k := by
  rw [mem_def, delete, List.mem_filter, decide_eq_true_eq]
  exact Iff.rfl

theorem mem_put {s : KeyedStore key} {a b : α} :
    b ∈ s.put a ↔ b = a ∨ b ∈ s ∧ key b ≠ key a := by
  rw [mem_def, put, List.mem_cons]
  exact or_congr_right mem_delete

theorem get_eq_some_iff {s : KeyedStore key} {k : κ} {a : α} :
    s.get k = some a ↔ a ∈ s ∧ key a = k := by
  constructor
  · intro h
    exact ⟨List.mem_of_find?_eq_some h, by simpa using List.find?_some h⟩
  · rintro ⟨ha, rfl⟩
    cases hget : s.get (key a) with
    | none => exact absurd (decide_eq_true rfl) (List.find?_eq_none.mp hget a ha)
    | some b =>
        have hb : key b = key a := by simpa using List.find?_some hget
        rw [eq_of_key_eq ha (List.mem_of_find?_eq_some hget) hb.symm]

/-- A property of entries that holds of what is written holds after the write. -/
theorem forall_mem_put {P : α → Prop} {s : KeyedStore key} {a : α} (h : ∀ b ∈ s, P b) (ha : P a) :
    ∀ b ∈ s.put a, P b := by
  intro b hb
  rcases mem_put.mp hb with rfl | ⟨hb, -⟩
  · exact ha
  · exact h b hb

/-! ## Locks -/

section Locks

variable {lock : α → Option ι}

/-- An entry may be written when no other entry holds its lock. -/
theorem Exclusive.put_of_free {s : KeyedStore key} {a : α} (h : Exclusive lock s)
    (hfree : ∀ b ∈ s, key b ≠ key a → ∀ l, lock a = some l → lock b ≠ some l) :
    Exclusive lock (s.put a) := by
  intro b hb c hc l hbl hcl
  rcases mem_put.mp hb with hba | ⟨hb', hbkey⟩ <;> rcases mem_put.mp hc with hca | ⟨hc', hckey⟩
  · rw [hba, hca]
  · subst hba
    exact absurd hcl (hfree c hc' hckey l hbl)
  · subst hca
    exact absurd hbl (hfree b hb' hbkey l hcl)
  · exact h b hb' c hc' l hbl hcl

/-- An entry may be written in the place of one that held every lock it holds. -/
theorem Exclusive.put_of_held {s : KeyedStore key} {a b : α} (h : Exclusive lock s) (hb : b ∈ s)
    (hkey : key b = key a) (hheld : ∀ l, lock a = some l → lock b = some l) :
    Exclusive lock (s.put a) := by
  refine h.put_of_free fun c hc hckey l hal hcl => hckey ?_
  rw [h c hc b hb l hcl (hheld l hal), hkey]

theorem Exclusive.delete {s : KeyedStore key} (h : Exclusive lock s) (k : κ) :
    Exclusive lock (s.delete k) :=
  fun a ha b hb => h a (mem_delete.mp ha).1 b (mem_delete.mp hb).1

end Locks

end KeyedStore

end Xcs
