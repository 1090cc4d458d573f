import Mathlib.Data.List.Nodup
import Mathlib.Logic.Relation

/-!
# Lists that are closed under references

The items of a list have keys, and each refers to others by their keys.  `IsClosure` says that the
list is the closure of one key: each key once, every reference back to an item before, and nothing
that the key does not lead to.

* `IsClosure.mem_iff`: the keys are the ones that the target reaches.
* `RefersBack.of_pairwise`: in an ordered list, a reference to something smaller leads back.
-/

namespace Xcs

variable {α β κ : Type*}

/-- The item of the first key refers to the second. -/
def RefersTo (key : α → κ) (refs : α → List κ) (l : List α) (j k : κ) : Prop :=
  ∃ a ∈ l, key a = j ∧ k ∈ refs a

/-- Each item refers to items before it only. -/
def RefersBack (key : α → κ) (refs : α → List κ) (l : List α) : Prop :=
  ∀ pre a post, l = pre ++ a :: post → ∀ k ∈ refs a, k ∈ pre.map key

/-- The list is the closure of a key, each item after what it refers to. -/
structure IsClosure (key : α → κ) (refs : α → List κ) (target : κ) (l : List α) : Prop where
  nodup : (l.map key).Nodup
  present : target ∈ l.map key
  refersBack : RefersBack key refs l
  related : ∀ a ∈ l, Relation.ReflTransGen (RefersTo key refs l) target (key a)

variable {key : α → κ} {refs refs' : α → List κ} {l : List α} {target : κ}

/-- What an item refers to is in the list. -/
theorem RefersBack.mem (h : RefersBack key refs l) {j k : κ} (hjk : RefersTo key refs l j k) :
    k ∈ l.map key := by
  obtain ⟨a, ha, -, hk⟩ := hjk
  obtain ⟨pre, post, rfl⟩ := List.append_of_mem ha
  rw [List.map_append]
  exact List.mem_append_left _ (h pre a post rfl k hk)

/-- **The keys of a closure are those that the target reaches.** -/
theorem IsClosure.mem_iff (h : IsClosure key refs target l) (k : κ) :
    k ∈ l.map key ↔ Relation.ReflTransGen (RefersTo key refs l) target k := by
  constructor
  · intro hk
    obtain ⟨a, ha, rfl⟩ := List.mem_map.mp hk
    exact h.related a ha
  · intro hk
    induction hk with
    | refl => exact h.present
    | tail _ hjk _ => exact h.refersBack.mem hjk

theorem refersBack_append : RefersBack key (fun a => refs a ++ refs' a) l ↔
    RefersBack key refs l ∧ RefersBack key refs' l := by
  constructor
  · intro h
    constructor
    · intro pre a post hl k hk
      exact h pre a post hl k (List.mem_append_left _ hk)
    · intro pre a post hl k hk
      exact h pre a post hl k (List.mem_append_right _ hk)
  · rintro ⟨h, h'⟩ pre a post hl k hk
    rcases List.mem_append.mp hk with hk | hk
    · exact h pre a post hl k hk
    · exact h' pre a post hl k hk

/-- In an ordered list, what is not above an item stands before it. -/
theorem RefersBack.of_pairwise {le : α → α → Prop} (hl : l.Pairwise le)
    (h : ∀ a ∈ l, ∀ k ∈ refs a, ∃ b ∈ l, key b = k ∧ b ≠ a ∧ ¬le a b) :
    RefersBack key refs l := by
  rintro pre a post rfl k hk
  obtain ⟨b, hb, rfl, hne, hnot⟩ :=
    h a (List.mem_append_right _ List.mem_cons_self) k hk
  rcases List.mem_append.mp hb with hb | hb
  · exact List.mem_map_of_mem hb
  · rcases List.mem_cons.mp hb with hb | hb
    · exact absurd hb hne
    · have hpost := (List.pairwise_append.mp hl).2.1
      exact absurd ((List.pairwise_cons.mp hpost).1 b hb) hnot

theorem refersBack_map {f : β → α} {l : List β} :
    RefersBack key refs (l.map f) ↔ RefersBack (key ∘ f) (refs ∘ f) l := by
  constructor
  · rintro h pre b post rfl k hk
    have hpre := h (pre.map f) (f b) (post.map f) (List.map_append ..) k hk
    rw [List.map_map] at hpre
    exact hpre
  · intro h pre a post hl k hk
    obtain ⟨pre', rest, rfl, rfl, hrest⟩ := List.map_eq_append_iff.mp hl
    obtain ⟨b, post', rfl, rfl, rfl⟩ := List.map_eq_cons_iff.mp hrest
    rw [List.map_map]
    exact h pre' b post' rfl k hk

theorem refersTo_map {f : β → α} {l : List β} {j k : κ} :
    RefersTo key refs (l.map f) j k ↔ RefersTo (key ∘ f) (refs ∘ f) l j k := by
  constructor
  · rintro ⟨a, ha, hj, hk⟩
    obtain ⟨b, hb, rfl⟩ := List.mem_map.mp ha
    exact ⟨b, hb, hj, hk⟩
  · rintro ⟨b, hb, hj, hk⟩
    exact ⟨f b, List.mem_map_of_mem hb, hj, hk⟩

/-- A list is a closure when the list it comes from is. -/
theorem isClosure_map {f : β → α} {l : List β} :
    IsClosure key refs target (l.map f) ↔ IsClosure (key ∘ f) (refs ∘ f) target l := by
  have hrefers : RefersTo key refs (l.map f) = RefersTo (key ∘ f) (refs ∘ f) l := by
    ext j k
    exact refersTo_map
  constructor
  · rintro ⟨hnodup, htarget, hback, hrelated⟩
    rw [List.map_map] at hnodup htarget
    rw [hrefers] at hrelated
    exact ⟨hnodup, htarget, refersBack_map.mp hback,
      fun b hb => hrelated (f b) (List.mem_map_of_mem hb)⟩
  · rintro ⟨hnodup, htarget, hback, hrelated⟩
    refine ⟨?_, ?_, refersBack_map.mpr hback, fun a ha => ?_⟩
    · rw [List.map_map]
      exact hnodup
    · rw [List.map_map]
      exact htarget
    · obtain ⟨b, hb, rfl⟩ := List.mem_map.mp ha
      rw [hrefers]
      exact hrelated b hb

/-- Whether a list is a closure depends on its keys and references only. -/
theorem isClosure_congr {key' : β → κ} {refs' : β → List κ} {l' : List β}
    (h : List.Forall₂ (fun a b => key a = key' b ∧ refs a = refs' b) l l') :
    IsClosure key refs target l ↔ IsClosure key' refs' target l' := by
  have htable : l.map (fun a => (key a, refs a)) = l'.map fun b => (key' b, refs' b) := by
    induction h with
    | nil => rfl
    | cons hab _ ih => rw [List.map_cons, List.map_cons, hab.1, hab.2, ih]
  have hleft : IsClosure Prod.fst Prod.snd target (l.map fun a => (key a, refs a)) ↔
      IsClosure key refs target l := isClosure_map
  have hright : IsClosure Prod.fst Prod.snd target (l'.map fun b => (key' b, refs' b)) ↔
      IsClosure key' refs' target l' := isClosure_map
  rw [← hleft, ← hright, htable]

/-- What refers to what does not depend on the order of the list. -/
theorem refersTo_perm {l' : List α} (h : l.Perm l') :
    RefersTo key refs l = RefersTo key refs l' := by
  ext j k
  constructor
  · rintro ⟨a, ha, hj, hk⟩
    exact ⟨a, h.mem_iff.mp ha, hj, hk⟩
  · rintro ⟨a, ha, hj, hk⟩
    exact ⟨a, h.mem_iff.mpr ha, hj, hk⟩

end Xcs
