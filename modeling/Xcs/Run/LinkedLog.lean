import Mathlib.Data.List.Chain
import Mathlib.Data.List.MinMax
import Mathlib.Data.List.Nodup

/-!
# Linked logs

A log of entries numbered without a gap from a start, each of which names the hash of the entry
before it.  The first entry has a hash that is given.

* `LinkedLog.snoc` is the rule by which a log grows: the new entry continues the newest one.
* `LinkedLog.argmax_index` says that the entry with the greatest index is the last one.
* `LinkedLog.eq_of_index_eq` says that a log has no fork.
-/

namespace Xcs

variable {α β : Type*}

/-- The entry may come after `newest`, or first. -/
def ContinuesLog (index : α → ℕ) (hash parent : α → β) (start : ℕ) (genesis : β)
    (newest : Option α) (entry : α) : Prop :=
  match newest with
  | none => index entry = start ∧ hash entry = genesis
  | some newest => index entry = index newest + 1 ∧ parent entry = hash newest

/-- A log without gap or fork. -/
structure LinkedLog (index : α → ℕ) (hash parent : α → β) (start : ℕ) (genesis : β)
    (entries : List α) : Prop where
  indices : entries.map index = List.range' start entries.length
  first : ∀ entry ∈ entries.head?, hash entry = genesis
  linked : entries.IsChain fun previous next => parent next = hash previous

namespace LinkedLog

variable {index : α → ℕ} {hash parent : α → β} {start : ℕ} {genesis : β} {entries : List α}

theorem nil : LinkedLog index hash parent start genesis [] where
  indices := rfl
  first := by simp
  linked := .nil

/-- **A log grows by an entry that continues it.** -/
theorem snoc (h : LinkedLog index hash parent start genesis entries) {entry : α}
    (hnext : ContinuesLog index hash parent start genesis entries.getLast? entry) :
    LinkedLog index hash parent start genesis (entries ++ [entry]) := by
  induction entries using List.reverseRec with
  | nil =>
      obtain ⟨hindex, hhash⟩ := hnext
      exact ⟨by simp [hindex], by simpa using hhash, .singleton _⟩
  | append_singleton entries last _ =>
      rw [List.getLast?_concat] at hnext
      obtain ⟨hindex, hparent⟩ := hnext
      have hlast : index last = start + entries.length := by
        have hindices := h.indices
        rw [List.map_append, List.length_append, List.length_singleton, List.range'_1_concat,
          List.map_singleton] at hindices
        exact List.singleton_inj.mp (List.append_inj' hindices rfl).2
      refine ⟨?_, ?_, ?_⟩
      · rw [List.map_append, h.indices, @List.length_append _ (entries ++ [last]),
          List.length_singleton, List.range'_1_concat, List.map_singleton, hindex, hlast,
          List.length_append, List.length_singleton, Nat.add_assoc]
      · intro first hfirst
        refine h.first first ?_
        cases entries <;> simpa using hfirst
      · refine h.linked.append (.singleton _) ?_
        intro previous hprevious next hnext
        rw [List.getLast?_concat, Option.mem_some_iff] at hprevious
        rw [List.head?_cons, Option.mem_some_iff] at hnext
        rw [← hprevious, ← hnext]
        exact hparent

/-- The indices are increasing. -/
theorem pairwise_index (h : LinkedLog index hash parent start genesis entries) :
    entries.Pairwise fun a b => index a < index b := by
  rw [← List.pairwise_map, h.indices]
  exact List.pairwise_lt_range'

/-- **No fork.**  An index has at most one entry. -/
theorem eq_of_index_eq (h : LinkedLog index hash parent start genesis entries) {a b : α}
    (ha : a ∈ entries) (hb : b ∈ entries) (hindex : index a = index b) : a = b := by
  have hnodup : (entries.map index).Nodup := by
    rw [h.indices]
    exact List.nodup_range'
  exact List.inj_on_of_nodup_map hnodup ha hb hindex

/-- **The newest entry is the last one.** -/
theorem argmax_index (h : LinkedLog index hash parent start genesis entries) :
    entries.argmax index = entries.getLast? := by
  induction entries using List.reverseRec with
  | nil => rfl
  | append_singleton entries last _ =>
      have hpairwise := h.pairwise_index
      rw [List.pairwise_append] at hpairwise
      rw [List.getLast?_concat, List.argmax_concat]
      cases hmax : entries.argmax index with
      | none => rfl
      | some greatest =>
          have hlt := hpairwise.2.2 greatest (List.argmax_mem hmax) last (List.mem_singleton_self _)
          exact if_pos hlt

end LinkedLog

end Xcs
