import Mathlib.Order.Basic

/-!
# Computations with the same outcome

Two computations that may throw have the same outcome when both return, and what they return is
related by `R`, or both throw, and what they throw is related by `E`.

* `SameOutcome.bind` is the rule of sequence.
* `SameOutcome.of_ok` reduces the relation to what the two return, where they throw alike.
-/

namespace Xcs

variable {ε ε' α α' β β' : Type}

/-- Both return, or both throw. -/
inductive SameOutcome (E : ε → ε' → Prop) (R : α → α' → Prop) :
    Except ε α → Except ε' α' → Prop
  | ok {a : α} {a' : α'} (h : R a a') : SameOutcome E R (.ok a) (.ok a')
  | error {e : ε} {e' : ε'} (h : E e e') : SameOutcome E R (.error e) (.error e')

namespace SameOutcome

variable {E : ε → ε' → Prop} {R : α → α' → Prop} {S : β → β' → Prop} {x : Except ε α}
  {y : Except ε' α'}

/-- **The rule of sequence.** -/
theorem bind {f : α → Except ε β} {g : α' → Except ε' β'} (h : SameOutcome E R x y)
    (hfg : ∀ a a', R a a' → SameOutcome E S (f a) (g a')) :
    SameOutcome E S (x >>= f) (y >>= g) := by
  cases h with
  | ok h => exact hfg _ _ h
  | error h => exact .error h

/-- The rule of consequence. -/
theorem mono {E' : ε → ε' → Prop} {R' : α → α' → Prop} (h : SameOutcome E R x y)
    (herror : ∀ e e', E e e' → E' e e') (hok : ∀ a a', R a a' → R' a a') :
    SameOutcome E' R' x y := by
  cases h with
  | ok h => exact .ok (hok _ _ h)
  | error h => exact .error (herror _ _ h)

/-- Each returns where the other does, and their errors are alike. -/
theorem of_ok (hxy : ∀ a, x = .ok a → ∃ a', y = .ok a' ∧ R a a')
    (hyx : ∀ a', y = .ok a' → ∃ a, x = .ok a)
    (herror : ∀ e e', x = .error e → y = .error e' → E e e') : SameOutcome E R x y := by
  cases x with
  | ok a =>
      obtain ⟨a', rfl, h⟩ := hxy a rfl
      exact .ok h
  | error e =>
      cases y with
      | ok a' =>
          obtain ⟨a, ha⟩ := hyx a' rfl
          cases ha
      | error e' => exact .error (herror e e' rfl rfl)

/-- The relation may be used together with what the two return. -/
theorem and_ok (h : SameOutcome E R x y) :
    SameOutcome E (fun a a' => R a a' ∧ x = .ok a ∧ y = .ok a') x y := by
  cases h with
  | ok h => exact .ok ⟨h, rfl, rfl⟩
  | error h => exact .error h

end SameOutcome

/-- A computation has its own outcome. -/
theorem SameOutcome.refl {E : ε → ε → Prop} {R : α → α → Prop} (hE : ∀ e, E e e)
    (hR : ∀ a, R a a) (x : Except ε α) : SameOutcome E R x x := by
  cases x with
  | ok a => exact .ok (hR a)
  | error e => exact .error (hE e)

end Xcs
