import Xcs.Run.Program

/-!
# Programs on a world

A program that is alone on its world.  `performs c w r w'` says that in the world `w` the call `c`
may be answered with `r` and leave the world `w'`.

`EnsuresOn G Q w p` says of a program `p` in a world `w` that it makes a call only in a world where
`G` allows it, and that it returns or throws only what `Q` allows in the world it leaves.

* `EnsuresOn.bind` and `EnsuresOn.catchError` are the rules of composition, `EnsuresOn.mono` is the
  rule of consequence.
* `EnsuresOn.of_run` is soundness.
-/

namespace Xcs
namespace Program

variable {C : Type} {R : C → Type} {ε α β σ : Type}

section EnsuresOn

variable (performs : (c : C) → σ → R c → σ → Prop) (G : σ → C → Prop)
  (Q : σ → Except ε α → Prop)

/-- Calls are allowed by `G`, results by `Q`, each in the world at that time. -/
def EnsuresOn : σ → Program C R ε α → Prop
  | w, .done result => Q w result
  | _, .stopped => True
  | w, .call c next => G w c ∧ ∀ r w', performs c w r w' → EnsuresOn w' (next r)

end EnsuresOn

variable {performs : (c : C) → σ → R c → σ → Prop} {G : σ → C → Prop}
  {Q Q' : σ → Except ε α → Prop}

/-- The rule of consequence. -/
theorem EnsuresOn.mono (sub : ∀ w result, Q w result → Q' w result) :
    ∀ {p : Program C R ε α} {w : σ}, EnsuresOn performs G Q w p → EnsuresOn performs G Q' w p
  | .done result, w, hp => sub w result hp
  | .stopped, _, _ => trivial
  | .call _ _, _, hp => ⟨hp.1, fun r w' hr => EnsuresOn.mono sub (hp.2 r w' hr)⟩

/-- **The rule of sequence.** -/
theorem EnsuresOn.bind {P : σ → Except ε β → Prop} {f : β → Program C R ε α}
    (hok : ∀ w b, P w (.ok b) → EnsuresOn performs G Q w (f b))
    (herror : ∀ w e, P w (.error e) → Q w (.error e)) :
    ∀ {p : Program C R ε β} {w : σ}, EnsuresOn performs G P w p → EnsuresOn performs G Q w (p >>= f)
  | .done (.ok b), w, hp => hok w b hp
  | .done (.error e), w, hp => herror w e hp
  | .stopped, _, _ => trivial
  | .call _ _, _, hp => ⟨hp.1, fun r w' hr => EnsuresOn.bind hok herror (hp.2 r w' hr)⟩

/-- **The rule of the handler.** -/
theorem EnsuresOn.catchError {P : σ → Except ε α → Prop} {handler : ε → Program C R ε α}
    (hok : ∀ w a, P w (.ok a) → Q w (.ok a))
    (herror : ∀ w e, P w (.error e) → EnsuresOn performs G Q w (handler e)) :
    ∀ {p : Program C R ε α} {w : σ}, EnsuresOn performs G P w p →
      EnsuresOn performs G Q w (p.catchError handler)
  | .done (.ok a), w, hp => hok w a hp
  | .done (.error e), w, hp => herror w e hp
  | .stopped, _, _ => trivial
  | .call _ _, _, hp => ⟨hp.1, fun r w' hr => EnsuresOn.catchError hok herror (hp.2 r w' hr)⟩

/-- The same where the handler throws errors of another type. -/
theorem EnsuresOn.handle {ε' : Type} {P : σ → Except ε α → Prop} {Q : σ → Except ε' α → Prop}
    {handler : ε → Program C R ε' α} (hok : ∀ w a, P w (.ok a) → Q w (.ok a))
    (herror : ∀ w e, P w (.error e) → EnsuresOn performs G Q w (handler e)) :
    ∀ {p : Program C R ε α} {w : σ}, EnsuresOn performs G P w p →
      EnsuresOn performs G Q w (p.handle handler)
  | .done (.ok a), w, hp => hok w a hp
  | .done (.error e), w, hp => herror w e hp
  | .stopped, _, _ => trivial
  | .call _ _, _, hp => ⟨hp.1, fun r w' hr => EnsuresOn.handle hok herror (hp.2 r w' hr)⟩

/-- The rule of a call. -/
theorem EnsuresOn.bind_perform {w : σ} {c : C} {f : R c → Program C R ε α} (hcall : G w c)
    (hnext : ∀ r w', performs c w r w' → EnsuresOn performs G Q w' (f r)) :
    EnsuresOn performs G Q w (Program.perform c >>= f) :=
  ⟨hcall, hnext⟩

/-! ## Runs -/

/-- A call is made and answered. -/
inductive StepOn (performs : (c : C) → σ → R c → σ → Prop) :
    σ × Program C R ε α → Event R → σ × Program C R ε α → Prop
  | call {w w' : σ} {c : C} {next : R c → Program C R ε α} {r : R c} :
      performs c w r w' → StepOn performs (w, .call c next) ⟨c, r⟩ (w', next r)

/-- **Soundness.**  Each call of a run is made in a world where it is allowed, and a result is
allowed in the world it is left in. -/
theorem EnsuresOn.of_run {w w' : σ} {p p' : Program C R ε α} {tr : List (Event R)}
    (hp : EnsuresOn performs G Q w p) (h : Run (StepOn performs) (w, p) tr (w', p')) :
    EnsuresOn performs G Q w' p' := by
  refine h.invariant (P := fun s => EnsuresOn performs G Q s.1 s.2) ?_ hp
  rintro _ _ _ hs ⟨hperforms⟩
  exact hs.2 _ _ hperforms

/-- A program that never stops is not stopped in any state of a run. -/
theorem NeverStops.ne_stopped {w w' : σ} {p p' : Program C R ε α} {tr : List (Event R)}
    (hp : p.NeverStops) (h : Run (StepOn performs) (w, p) tr (w', p')) : p' ≠ .stopped := by
  have hreached : p'.NeverStops := by
    refine h.invariant (P := fun s => s.2.NeverStops) ?_ hp
    rintro _ _ _ hs ⟨_⟩
    exact hs _
  rintro rfl
  exact hreached

theorem EnsuresOn.allowed {w w' : σ} {p p' : Program C R ε α} {e : Event R}
    (hp : EnsuresOn performs G Q w p) (h : StepOn performs (w, p) e (w', p')) : G w e.1 := by
  cases h with
  | call _ => exact hp.1

end Program
end Xcs
