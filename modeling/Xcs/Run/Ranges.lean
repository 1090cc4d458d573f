import Mathlib.Data.List.Basic
import Mathlib.Data.Nat.Basic

/-!
# Sets of naturals as lists of ranges

A range stands for the naturals between its ends.  A list of ranges stands for their union, and the
same set has many lists; in a `Separated` list the ranges are in order, with a gap between any two
that follow each other, so that each is as long as it can be.

* `exists_range_of_covers`: in a separated list an interval is covered only inside one range, so
  one look at each range decides whether it is.
* `Merged` is the invariant of a loop that reads ranges in the order of their lower ends and writes
  separated ones; `Merged.push` and `Merged.widen` are its two steps.
-/

namespace Xcs

variable {ρ : Type*} (lo hi : ρ → ℕ)

/-- A natural lies in one of the ranges. -/
def Covers (ranges : List ρ) (n : ℕ) : Prop :=
  ∃ r ∈ ranges, lo r ≤ n ∧ n ≤ hi r

/-- The ranges are in order, and no two of them meet or touch. -/
def Separated (ranges : List ρ) : Prop :=
  ranges.Pairwise fun a b => hi a + 1 < lo b

variable {lo hi} {ranges written : List ρ}

theorem covers_append {xs ys : List ρ} {n : ℕ} :
    Covers lo hi (xs ++ ys) n ↔ Covers lo hi xs n ∨ Covers lo hi ys n := by
  unfold Covers
  constructor
  · rintro ⟨r, hr, hn⟩
    rcases List.mem_append.mp hr with hr | hr
    · exact .inl ⟨r, hr, hn⟩
    · exact .inr ⟨r, hr, hn⟩
  · rintro (⟨r, hr, hn⟩ | ⟨r, hr, hn⟩)
    · exact ⟨r, List.mem_append_left ys hr, hn⟩
    · exact ⟨r, List.mem_append_right xs hr, hn⟩

theorem covers_singleton {r : ρ} {n : ℕ} : Covers lo hi [r] n ↔ lo r ≤ n ∧ n ≤ hi r := by
  simp [Covers]

theorem covers_congr {xs ys : List ρ} (h : ∀ r, r ∈ xs ↔ r ∈ ys) (n : ℕ) :
    Covers lo hi xs n ↔ Covers lo hi ys n :=
  ⟨fun ⟨r, hr, hn⟩ => ⟨r, (h r).mp hr, hn⟩, fun ⟨r, hr, hn⟩ => ⟨r, (h r).mpr hr, hn⟩⟩

/-- What comes after a range that is covered is covered by the same range, or not at all. -/
theorem Separated.le_of_covers (h : Separated lo hi ranges) {r : ρ} (hr : r ∈ ranges) {n : ℕ}
    (hlo : lo r ≤ n + 1) (hn : n ≤ hi r) (hnext : Covers lo hi ranges (n + 1)) : n + 1 ≤ hi r := by
  obtain ⟨s, hs, hslo, hshi⟩ := hnext
  by_contra hover
  have hpair := List.pairwise_iff_getElem.mp h
  obtain ⟨i, hi', rfl⟩ := List.getElem_of_mem hr
  obtain ⟨j, hj, rfl⟩ := List.getElem_of_mem hs
  rcases Nat.lt_trichotomy i j with hij | hij | hij
  · have := hpair i j hi' hj hij
    omega
  · subst hij
    omega
  · have := hpair j i hj hi' hij
    omega

/-- In a separated list an interval is covered only inside one range. -/
theorem exists_range_of_covers (h : Separated lo hi ranges) {a b : ℕ} (hab : a ≤ b)
    (hall : ∀ n, a ≤ n → n ≤ b → Covers lo hi ranges n) :
    ∃ r ∈ ranges, lo r ≤ a ∧ b ≤ hi r := by
  induction b, hab using Nat.le_induction with
  | base =>
    obtain ⟨r, hr, hlo, hhi⟩ := hall a (Nat.le_refl a) (Nat.le_refl a)
    exact ⟨r, hr, hlo, hhi⟩
  | succ b hab ih =>
    obtain ⟨r, hr, hlo, hhi⟩ := ih fun n ha hb => hall n ha (by omega)
    exact ⟨r, hr, hlo, h.le_of_covers hr (by omega) hhi (hall (b + 1) (by omega) (by omega))⟩

/-- An interval is covered by a separated list if and only if one range contains it. -/
theorem Separated.covers_iff (h : Separated lo hi ranges) {a b : ℕ} (hab : a ≤ b) :
    (∃ r ∈ ranges, lo r ≤ a ∧ b ≤ hi r) ↔
      ∀ n, a ≤ n → n ≤ b → Covers lo hi ranges n := by
  constructor
  · rintro ⟨r, hr, hlo, hhi⟩ n ha hb
    exact ⟨r, hr, by omega, by omega⟩
  · exact exists_range_of_covers h hab

/-! ## Merging -/

variable (lo hi)

/-- Separated ranges, none of them empty, that stand for the same naturals as the ranges read. -/
structure Merged (written ranges : List ρ) : Prop where
  proper : ∀ r ∈ ranges, lo r ≤ hi r
  separated : Separated lo hi ranges
  covers : ∀ n, Covers lo hi ranges n ↔ Covers lo hi written n

variable {lo hi}

theorem Merged.nil : Merged lo hi ([] : List ρ) [] :=
  ⟨List.forall_mem_nil _, List.Pairwise.nil, fun _ => Iff.rfl⟩

/-- A range that begins behind a gap is written as it is. -/
theorem Merged.push (h : Merged lo hi written ranges) {r : ρ} (hr : lo r ≤ hi r)
    (hgap : ∀ p ∈ ranges.getLast?, hi p + 1 < lo r) :
    Merged lo hi (written ++ [r]) (ranges ++ [r]) := by
  refine ⟨?_, ?_, fun n => ?_⟩
  · intro s hs
    rcases List.mem_append.mp hs with hs | hs
    · exact h.proper s hs
    · rwa [List.mem_singleton.mp hs]
  · refine List.pairwise_append.mpr ⟨h.separated, List.pairwise_singleton _ _, ?_⟩
    intro s hs t ht
    rw [List.mem_singleton.mp ht]
    rcases List.eq_nil_or_concat ranges with hnil | ⟨front, p, hlast⟩
    · rw [hnil] at hs
      exact absurd hs List.not_mem_nil
    · have hp := hgap p (by rw [hlast]; simp)
      rw [hlast, List.concat_eq_append, List.mem_append] at hs
      rcases hs with hs | hs
      · have hsep := h.separated
        rw [hlast, List.concat_eq_append, Separated, List.pairwise_append] at hsep
        have hbefore := hsep.2.2 s hs p (List.mem_singleton_self p)
        have hproper := h.proper p (by rw [hlast]; simp)
        omega
      · rwa [List.mem_singleton.mp hs]
  · rw [covers_append, covers_append, h.covers n]

/-- A range that begins inside the last one written, or right behind it, makes that one longer. -/
theorem Merged.widen {front : List ρ} {p r q : ρ} (h : Merged lo hi written (front ++ [p]))
    (hle : lo p ≤ lo r) (htouch : lo r ≤ hi p + 1) (hlo : lo q = lo p)
    (hhi : hi q = max (hi p) (hi r)) : Merged lo hi (written ++ [r]) (front ++ [q]) := by
  have hp : lo p ≤ hi p := h.proper p (by simp)
  refine ⟨?_, ?_, fun n => ?_⟩
  · intro s hs
    rcases List.mem_append.mp hs with hs | hs
    · exact h.proper s (List.mem_append_left _ hs)
    · rw [List.mem_singleton.mp hs]
      omega
  · have hsep := List.pairwise_append.mp h.separated
    refine List.pairwise_append.mpr ⟨hsep.1, List.pairwise_singleton _ _, ?_⟩
    intro s hs t ht
    rw [List.mem_singleton.mp ht, hlo]
    exact hsep.2.2 s hs p (List.mem_singleton_self p)
  · have hcovers := h.covers n
    rw [covers_append, covers_singleton] at hcovers
    rw [covers_append, covers_append, covers_singleton, covers_singleton, ← hcovers]
    constructor
    · rintro (hn | hn)
      · exact .inl (.inl hn)
      · by_cases hold : n ≤ hi p
        · exact .inl (.inr (by omega))
        · exact .inr (by omega)
    · rintro ((hn | hn) | hn)
      · exact .inl hn
      · exact .inr (by omega)
      · exact .inr (by omega)

end Xcs
