import Mathlib.Data.List.Pairwise
import Mathlib.Data.Nat.Basic
import Xcs.Run.Basic

/-!
# Fencing tokens

A register holds an epoch and, while somebody may write, that writer.  A grant raises the epoch
and installs a writer; a use needs the installed writer and the current epoch; a retirement needs
the same and leaves no writer.  Whatever else the system does is idle here.

The point of the construction is that a token never comes back.

* `pairwise_grants` says that the granted epochs grow.
* `not_holds_of_grant` says that a grant fences off every smaller epoch for the rest of the run.
* `not_holds_of_retire` says that a retirement fences off its own epoch as well.
-/

namespace Xcs
namespace Fence

variable {ω : Type*}

/-- The epoch of the last grant and the writer it was granted to, as long as it is not retired. -/
structure Register (ω : Type*) where
  epoch : ℕ
  holder : Option ω

/-- What happens to a register. -/
inductive Event (ω : Type*) where
  | grant (writer : ω) (epoch : ℕ)
  | use (writer : ω) (epoch : ℕ)
  | retire (writer : ω) (epoch : ℕ)
  | idle

/-- The token `(writer, epoch)` is the installed one. -/
def Register.Holds (r : Register ω) (writer : ω) (epoch : ℕ) : Prop :=
  r.holder = some writer ∧ r.epoch = epoch

/-- The steps of a register. -/
inductive Step : Register ω → Event ω → Register ω → Prop
  | grant {r : Register ω} {writer : ω} {epoch : ℕ} (higher : r.epoch < epoch) :
      Step r (.grant writer epoch) ⟨epoch, some writer⟩
  | use {r : Register ω} {writer : ω} {epoch : ℕ} (holds : r.Holds writer epoch) :
      Step r (.use writer epoch) r
  | retire {r : Register ω} {writer : ω} {epoch : ℕ} (holds : r.Holds writer epoch) :
      Step r (.retire writer epoch) ⟨epoch, none⟩
  | idle {r : Register ω} : Step r .idle r

theorem Step.of_grant {r t : Register ω} {w : ω} {k : ℕ} (h : Step r (.grant w k) t) :
    r.epoch < k ∧ t.epoch = k := by
  cases h with
  | grant higher => exact ⟨higher, rfl⟩

theorem Step.of_use {r t : Register ω} {w : ω} {k : ℕ} (h : Step r (.use w k) t) :
    r.Holds w k := by
  cases h with
  | use holds => exact holds

theorem Step.of_retire {r t : Register ω} {w : ω} {k : ℕ} (h : Step r (.retire w k) t) :
    r.Holds w k := by
  cases h with
  | retire holds => exact holds

/-- A register has at most one token. -/
theorem Register.Holds.unique {r : Register ω} {w w' : ω} {k k' : ℕ} (h : r.Holds w k)
    (h' : r.Holds w' k') : w = w' ∧ k = k' :=
  ⟨Option.some.inj (h.1.symm.trans h'.1), h.2.symm.trans h'.2⟩

/-- No step lowers the epoch. -/
theorem Step.epoch_le {r t : Register ω} {e : Event ω} (h : Step r e t) : r.epoch ≤ t.epoch := by
  cases h with
  | grant higher => exact higher.le
  | use => exact le_rfl
  | retire holds => exact holds.2.le
  | idle => exact le_rfl

/-- The epochs granted along a history. -/
def grants (tr : List (Event ω)) : List ℕ :=
  tr.filterMap fun
    | .grant _ epoch => some epoch
    | _ => none

/-- The token of `epoch` is dead in a register: a later grant has replaced it, or it was retired
and nobody has been granted since. -/
def Register.Dead (r : Register ω) (epoch : ℕ) : Prop :=
  epoch < r.epoch ∨ epoch = r.epoch ∧ r.holder = none

theorem Register.Dead.not_holds {r : Register ω} {w : ω} {k k' : ℕ} (h : r.Dead k)
    (hk : k' ≤ k) : ¬r.Holds w k' := by
  rintro ⟨hholder, hepoch⟩
  rcases h with h | ⟨h, hnone⟩
  · omega
  · rw [hnone] at hholder
    cases hholder

/-- Death is final. -/
theorem Register.Dead.step {r t : Register ω} {e : Event ω} {k : ℕ} (h : r.Dead k)
    (hstep : Step r e t) : t.Dead k := by
  cases hstep with
  | grant higher =>
      refine Or.inl ?_
      rcases h with h | ⟨h, -⟩
      · exact h.trans higher
      · exact h ▸ higher
  | use => exact h
  | retire holds =>
      rcases h with h | h
      · exact Or.inl (holds.2 ▸ h)
      · exact absurd holds (Register.Dead.not_holds (Or.inr h) (by rw [h.1, holds.2]))
  | idle => exact h

/-- A retirement kills its token. -/
theorem dead_of_retire {r t : Register ω} {w : ω} {k : ℕ} (h : Step r (.retire w k) t) :
    t.Dead k := by
  cases h with
  | retire holds => exact Or.inr ⟨rfl, rfl⟩

/-- Every epoch granted so far is at most the current one. -/
theorem le_epoch_of_mem_grants {r t : Register ω} {tr : List (Event ω)}
    (hrun : Run Step r tr t) : ∀ k ∈ grants tr, k ≤ t.epoch := by
  refine Run.induction (P := fun tr t => ∀ k ∈ grants tr, k ≤ t.epoch) (by simp [grants]) ?_ hrun
  intro tr t e u _ ih hstep k hk
  rw [grants, List.filterMap_append, List.mem_append] at hk
  rcases hk with hk | hk
  · exact (ih k hk).trans hstep.epoch_le
  · cases hstep with
    | grant higher => simp_all
    | _ => simp at hk

/-- **Epochs grow.**  The epochs granted along a run are strictly increasing. -/
theorem pairwise_grants {r t : Register ω} {tr : List (Event ω)} (hrun : Run Step r tr t) :
    (grants tr).Pairwise (· < ·) := by
  refine Run.induction (P := fun tr _ => (grants tr).Pairwise (· < ·)) (by simp [grants]) ?_ hrun
  intro tr t e u hrun ih hstep
  rw [grants, List.filterMap_append, List.pairwise_append]
  refine ⟨ih, ?_, fun a ha b hb => ?_⟩
  · cases e <;> simp
  · cases hstep with
    | grant higher =>
        have hle := le_epoch_of_mem_grants hrun a ha
        simp only [List.filterMap_cons, List.filterMap_nil, List.mem_singleton] at hb
        omega
    | _ => simp at hb

/-- **A grant fences off every smaller epoch.** -/
theorem not_holds_of_grant {r t : Register ω} {w w' : ω} {k k' : ℕ} {tr : List (Event ω)}
    (hrun : Run Step r tr t) (hgrant : .grant w k ∈ tr) (hk : k' < k) : ¬t.Holds w' k' := by
  have hmem : k ∈ grants tr := List.mem_filterMap.mpr ⟨.grant w k, hgrant, rfl⟩
  have hle := le_epoch_of_mem_grants hrun k hmem
  rintro ⟨-, hepoch⟩
  omega

/-- **A retirement fences off its own epoch and every smaller one.** -/
theorem not_holds_of_retire {r t : Register ω} {w w' : ω} {k k' : ℕ} {tr : List (Event ω)}
    (hrun : Run Step r tr t) (hretire : .retire w k ∈ tr) (hk : k' ≤ k) : ¬t.Holds w' k' := by
  have hdead : ∀ w k, .retire w k ∈ tr → t.Dead k := by
    refine Run.induction (P := fun tr t => ∀ w k, .retire w k ∈ tr → t.Dead k) (by simp) ?_ hrun
    intro tr t e u _ ih hstep w k hmem
    rcases List.mem_append.mp hmem with hmem | hmem
    · exact (ih w k hmem).step hstep
    · obtain rfl := List.mem_singleton.mp hmem
      exact dead_of_retire hstep
  exact (hdead w k hretire).not_holds hk

end Fence
end Xcs
