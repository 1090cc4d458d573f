import Mathlib.Data.List.Induction
import Mathlib.Order.Basic

/-!
# Runs of a labelled transition system

A system is a relation `step s e t`: in state `s` the event `e` may happen and leads to `t`.  A
run records its events in order, so that a statement about it may speak of what happened before
and after an event, and not only of the states reached.

* `Run.induction` is the invariant rule for properties of the state together with the history.
* `Run.invariant` and `Run.le` are its two common instances: a state predicate that every step
  preserves, and a measure that no step decreases.
* `Run.simulate` transports a run along a refinement map: what is proved of the abstract system
  holds of the concrete one.
-/

namespace Xcs

variable {σ ε τ δ : Type*}

/-- The runs of a transition relation, from a state, through a list of events, to a state. -/
inductive Run (step : σ → ε → σ → Prop) : σ → List ε → σ → Prop
  | nil (s : σ) : Run step s [] s
  | snoc {s t u : σ} {tr : List ε} {e : ε} :
      Run step s tr t → step t e u → Run step s (tr ++ [e]) u

namespace Run

variable {step : σ → ε → σ → Prop}

/-- **The invariant rule.**  A property of the history and the state that holds at the start and
that every step preserves holds after every run. -/
theorem induction {P : List ε → σ → Prop} {s : σ} (start : P [] s)
    (next : ∀ tr t e u, Run step s tr t → P tr t → step t e u → P (tr ++ [e]) u) :
    ∀ {tr t}, Run step s tr t → P tr t := by
  intro tr t h
  induction h with
  | nil => exact start
  | snoc h hstep ih => exact next _ _ _ _ h ih hstep

/-- A state predicate that every step preserves. -/
theorem invariant {P : σ → Prop} (next : ∀ t e u, P t → step t e u → P u) {s t : σ}
    {tr : List ε} (h : Run step s tr t) (start : P s) : P t :=
  induction (P := fun _ t => P t) start (fun _ t e u _ ht hstep => next t e u ht hstep) h

/-- A measure that no step decreases. -/
theorem le {α : Type*} [Preorder α] {m : σ → α} (next : ∀ t e u, step t e u → m t ≤ m u)
    {s t : σ} {tr : List ε} (h : Run step s tr t) : m s ≤ m t :=
  invariant (P := fun t => m s ≤ m t) (fun t e u ht hstep => ht.trans (next t e u hstep)) h le_rfl

/-- A run of some steps is a run of more. -/
theorem mono {step' : σ → ε → σ → Prop} (sub : ∀ s e t, step s e t → step' s e t) {s t : σ}
    {tr : List ε} (h : Run step s tr t) : Run step' s tr t := by
  induction h with
  | nil => exact nil _
  | snoc _ hstep ih => exact snoc ih (sub _ _ _ hstep)

theorem single {s t : σ} {e : ε} (h : step s e t) : Run step s [e] t :=
  snoc (nil s) h

theorem append {s t u : σ} {tr tr' : List ε} (h : Run step s tr t) (h' : Run step t tr' u) :
    Run step s (tr ++ tr') u := by
  induction h' with
  | nil => simpa using h
  | snoc h' hstep ih =>
      rw [← List.append_assoc]
      exact snoc ih hstep

/-- A run with a last event ends in that event. -/
theorem snoc_inv {s u : σ} {tr : List ε} {e : ε} (h : Run step s (tr ++ [e]) u) :
    ∃ t, Run step s tr t ∧ step t e u := by
  generalize htr : tr ++ [e] = es at h
  cases h with
  | nil => simp at htr
  | snoc h hstep =>
      obtain ⟨rfl, he⟩ := List.append_inj' htr rfl
      obtain rfl := List.singleton_inj.mp he
      exact ⟨_, h, hstep⟩

theorem nil_inv {s t : σ} (h : Run step s [] t) : t = s := by
  generalize htr : ([] : List ε) = tr at h
  cases h with
  | nil => rfl
  | snoc h hstep => simp at htr

/-- A run of a concatenation passes through a state in between. -/
theorem split {s u : σ} {tr tr' : List ε} (h : Run step s (tr ++ tr') u) :
    ∃ t, Run step s tr t ∧ Run step t tr' u := by
  induction tr' using List.reverseRec generalizing u with
  | nil => exact ⟨u, by simpa using h, nil u⟩
  | append_singleton tr' e ih =>
      rw [← List.append_assoc] at h
      obtain ⟨v, hv, hstep⟩ := h.snoc_inv
      obtain ⟨t, h₁, h₂⟩ := ih hv
      exact ⟨t, h₁, snoc h₂ hstep⟩

/-- A run with a first event begins with that event. -/
theorem cons_inv {s u : σ} {e : ε} {tr : List ε} (h : Run step s (e :: tr) u) :
    ∃ t, step s e t ∧ Run step t tr u := by
  obtain ⟨t, hfirst, hrest⟩ := (show Run step s ([e] ++ tr) u from h).split
  obtain ⟨t', hnil, hstep⟩ := (show Run step s ([] ++ [e]) t from hfirst).snoc_inv
  rw [hnil.nil_inv] at hstep
  exact ⟨t, hstep, hrest⟩

/-- **Refinement.**  When every concrete step is an abstract step between the images, every
concrete run is an abstract run between the images, event for event. -/
theorem simulate {step' : τ → δ → τ → Prop} (f : σ → τ) (g : ε → δ)
    (sim : ∀ s e t, step s e t → step' (f s) (g e) (f t)) {s t : σ} {tr : List ε}
    (h : Run step s tr t) : Run step' (f s) (tr.map g) (f t) := by
  induction h with
  | nil => exact nil _
  | snoc _ hstep ih =>
      rw [List.map_append]
      exact snoc ih (sim _ _ _ hstep)

end Run

end Xcs
