import Mathlib.Data.List.Basic
import Mathlib.Data.Nat.Basic

/-!
# An interval in blocks

An interval of naturals is cut into blocks of a fixed size, of which the last may be shorter.

* `exists_getElem?_blocks` and `eq_div_of_getElem?_blocks`: a member of the interval is in exactly
  one block, at the position that a division finds.
* `eq_blocks_of_consecutive` and `consecutive_blocks`: a list of intervals that can be checked from
  left to right, each beginning after the one before, is the list of blocks.
* `Emitted` is the invariant of a loop that makes the blocks one after the other.
-/

namespace Xcs

/-- The blocks of an interval, each with its first and its last member. -/
def blocks (size first last : ℕ) : List (ℕ × ℕ) :=
  (List.range ((last - first) / size + 1)).map fun j =>
    (first + size * j, min (first + size * j + size - 1) last)

/-- Each interval of a list begins where the one before has ended, is as long as it can be and is
not empty. -/
def Consecutive (size last : ℕ) : ℕ → List (ℕ × ℕ) → Prop
  | _, [] => True
  | start, b :: bs =>
      b.1 = start ∧ b.2 = min (start + size - 1) last ∧ b.1 ≤ b.2 ∧
        Consecutive size last (b.2 + 1) bs

variable {size first last : ℕ}

theorem getElem?_blocks {j : ℕ} (h : j ≤ (last - first) / size) :
    (blocks size first last)[j]?
      = some (first + size * j, min (first + size * j + size - 1) last) := by
  unfold blocks
  rw [List.getElem?_map, List.getElem?_range (by omega)]
  rfl

theorem of_getElem?_blocks {j : ℕ} {b : ℕ × ℕ} (h : (blocks size first last)[j]? = some b) :
    j ≤ (last - first) / size ∧
      b = (first + size * j, min (first + size * j + size - 1) last) := by
  have hj : j < (blocks size first last).length := (List.getElem?_eq_some_iff.mp h).1
  unfold blocks at hj
  rw [List.length_map, List.length_range] at hj
  have hle : j ≤ (last - first) / size := by omega
  rw [getElem?_blocks hle, Option.some.injEq] at h
  exact ⟨hle, h.symm⟩

/-- A block is a part of the interval, not empty and not longer than the size. -/
theorem of_mem_blocks (hsize : 0 < size) (hfirst : first ≤ last) {b : ℕ × ℕ}
    (h : b ∈ blocks size first last) :
    first ≤ b.1 ∧ b.1 ≤ b.2 ∧ b.2 ≤ last ∧ b.2 - b.1 + 1 ≤ size := by
  obtain ⟨j, hj⟩ := List.mem_iff_getElem?.mp h
  obtain ⟨hle, rfl⟩ := of_getElem?_blocks hj
  have hmul : size * j ≤ last - first :=
    Nat.le_trans (Nat.mul_le_mul_left size hle) (Nat.mul_div_le (last - first) size)
  dsimp only
  omega

/-- **A member is in the block at its quotient.** -/
theorem exists_getElem?_blocks (hsize : 0 < size) {i : ℕ} (hfirst : first ≤ i) (hlast : i ≤ last) :
    ∃ b, (blocks size first last)[(i - first) / size]? = some b ∧ b.1 ≤ i ∧ i ≤ b.2 := by
  have hle : (i - first) / size ≤ (last - first) / size :=
    Nat.div_le_div_right (Nat.sub_le_sub_right hlast first)
  refine ⟨_, getElem?_blocks hle, ?_, ?_⟩
  · have := Nat.mul_div_le (i - first) size
    show first + size * ((i - first) / size) ≤ i
    omega
  · have := Nat.lt_mul_div_succ (i - first) hsize
    rw [Nat.mul_succ] at this
    show i ≤ min (first + size * ((i - first) / size) + size - 1) last
    omega

/-- **A member is in no other block.** -/
theorem eq_div_of_getElem?_blocks (hsize : 0 < size) {i j : ℕ} {b : ℕ × ℕ}
    (h : (blocks size first last)[j]? = some b) (hfirst : b.1 ≤ i) (hlast : i ≤ b.2) :
    j = (i - first) / size := by
  obtain ⟨-, rfl⟩ := of_getElem?_blocks h
  dsimp only at hfirst hlast
  symm
  rw [Nat.div_eq_iff hsize, Nat.mul_comm]
  omega

theorem blocks_of_lt (hfirst : first ≤ last) (h : last - first < size) :
    blocks size first last = [(first, last)] := by
  have hend : min (first + size - 1) last = last := by omega
  unfold blocks
  rw [Nat.div_eq_of_lt h, Nat.zero_add, List.range_one, List.map_singleton, Nat.mul_zero,
    Nat.add_zero, hend]

theorem blocks_of_le (hsize : 0 < size) (h : size ≤ last - first) :
    blocks size first last = (first, first + size - 1) :: blocks size (first + size) last := by
  have hend : min (first + size - 1) last = first + size - 1 := by omega
  have hcount : (last - first) / size = (last - (first + size)) / size + 1 := by
    rw [Nat.div_eq_sub_div hsize h, Nat.sub_sub]
  unfold blocks
  rw [hcount, List.range_succ_eq_map, List.map_cons, List.map_map, Nat.mul_zero, Nat.add_zero, hend]
  congr 1
  refine List.map_congr_left fun j _ => ?_
  rw [Function.comp_apply, Nat.mul_succ, Nat.add_comm (size * j) size, ← Nat.add_assoc]

/-- **What is checked from left to right is the list of blocks.** -/
theorem eq_blocks_of_consecutive (hsize : 0 < size) (hfirst : first ≤ last) {bs : List (ℕ × ℕ)}
    (h : Consecutive size last first bs) (hne : bs ≠ []) (hend : ∀ b ∈ bs.getLast?, b.2 = last) :
    bs = blocks size first last := by
  induction bs generalizing first with
  | nil => exact absurd rfl hne
  | cons b bs ih =>
      obtain ⟨a, c⟩ := b
      obtain ⟨rfl, hc, -, hrest⟩ := h
      dsimp only at hc hrest
      by_cases hshort : last - a < size
      · -- the first block reaches the end, and an interval behind it would be empty
        have hclast : c = last := by omega
        rw [blocks_of_lt hfirst hshort, hclast]
        cases bs with
        | nil => rfl
        | cons d ds =>
            obtain ⟨hd, hdend, hdle, -⟩ := hrest
            omega
      · have hcfull : c = a + size - 1 := by omega
        cases bs with
        | nil =>
            have := hend (a, c) rfl
            dsimp only at this
            omega
        | cons d ds =>
            have hnext : c + 1 = a + size := by omega
            rw [hnext] at hrest
            rw [blocks_of_le hsize (by omega), hcfull,
              ih (by omega) hrest (List.cons_ne_nil _ _) fun e he => hend e (by
                rwa [List.getLast?_cons_cons])]

/-- The list of blocks is checked from left to right. -/
theorem consecutive_blocks (hsize : 0 < size) (hfirst : first ≤ last) :
    Consecutive size last first (blocks size first last) ∧
      ∀ b ∈ (blocks size first last).getLast?, b.2 = last := by
  -- the induction is on the number of members
  obtain ⟨n, hn⟩ : ∃ n, last - first = n := ⟨_, rfl⟩
  induction n using Nat.strong_induction_on generalizing first with
  | _ n ih =>
      by_cases hshort : last - first < size
      · rw [blocks_of_lt hfirst hshort]
        refine ⟨⟨rfl, ?_, hfirst, trivial⟩, ?_⟩
        · show last = min (first + size - 1) last
          omega
        · rintro b hb
          cases hb
          rfl
      · obtain ⟨hconsecutive, hend⟩ := ih (last - (first + size)) (by omega) (by omega) rfl
        rw [blocks_of_le hsize (by omega)]
        have hnext : first + size - 1 + 1 = first + size := by omega
        refine ⟨⟨rfl, ?_, ?_, by rw [hnext]; exact hconsecutive⟩, fun b hb => hend b ?_⟩
        · show first + size - 1 = min (first + size - 1) last
          omega
        · show first ≤ first + size - 1
          omega
        · have hne : blocks size (first + size) last ≠ [] := by
            unfold blocks
            simp
          rwa [List.getLast?_cons_of_ne_nil hne] at hb

/-! ## Making the blocks -/

/-- The first blocks of an interval, up to the one that begins at `start`. -/
def Emitted (size first last start : ℕ) (bs : List (ℕ × ℕ)) : Prop :=
  bs ++ (if start ≤ last then blocks size start last else []) = blocks size first last

theorem Emitted.nil (hfirst : first ≤ last) : Emitted size first last first [] := by
  unfold Emitted
  rw [if_pos hfirst, List.nil_append]

/-- One block more: it is full, or it reaches the end. -/
theorem Emitted.snoc {start e : ℕ} {bs : List (ℕ × ℕ)} (h : Emitted size first last start bs)
    (hstart : start ≤ e) (he : e ≤ last) (hlength : e + 1 - start ≤ size)
    (hclosed : e + 1 - start = size ∨ e = last) :
    Emitted size first last (e + 1) (bs ++ [(start, e)]) := by
  unfold Emitted at h ⊢
  rw [if_pos (Nat.le_trans hstart he)] at h
  rw [← h, List.append_assoc]
  congr 1
  by_cases hend : e = last
  · subst hend
    rw [if_neg (by omega), List.append_nil, blocks_of_lt hstart (by omega)]
  · have hfull : e + 1 = start + size := by omega
    have hfirst : blocks size start last = (start, e) :: blocks size (e + 1) last := by
      rw [blocks_of_le (by omega) (by omega), ← hfull]
      rfl
    rw [if_pos (by omega), hfirst]
    rfl

/-- Behind the end every block has been made. -/
theorem Emitted.eq_blocks {start : ℕ} {bs : List (ℕ × ℕ)} (h : Emitted size first last start bs)
    (hstart : last < start) : bs = blocks size first last := by
  unfold Emitted at h
  rwa [if_neg (by omega), List.append_nil] at h

end Xcs
