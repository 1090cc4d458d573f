import Mathlib.Order.Defs.Unbundled
import Xcs.Run.Pool

/-!
# Programs among others

A program that shares its world with others finds it changed whenever it makes a call.  Its calls
are therefore judged in every world that the one after its last call may have become, as `rely`
says, and not in that world itself.

`EnsuresUnder rely G Q w p` says of a program `p` that goes on in `w` that it makes only calls that
`G` allows in the world it makes them in, and that it returns or throws only what `Q` allows in the
world after its last call.

* `EnsuresUnder.bind`, `EnsuresUnder.catchError` and `EnsuresUnder.mono` are the rules of
  composition.
* `EnsuresUnder.interfere` says that the others do not disturb what a program ensures.
* `Pool.relyGuarantee` is the rule of parallel composition: when every allowed call keeps the
  invariant of the world and is an interference the others rely on, so does every run of a pool.
* `Pool.relyGuarantee_run` is the same from any state of a pool, and what the run does to the world
  is such an interference.
-/

namespace Xcs
namespace Program

variable {C : Type} {R : C → Type} {ε α β σ : Type}

section EnsuresUnder

variable (performs : (c : C) → σ → R c → σ → Prop) (rely : σ → σ → Prop) (G : σ → C → Prop)
  (Q : σ → Except ε α → Prop)

/-- Calls are allowed by `G` whatever the others have done before them, results by `Q`. -/
def EnsuresUnder : σ → Program C R ε α → Prop
  | w, .done result => Q w result
  | _, .stopped => True
  | w, .call c next => ∀ w₁, rely w w₁ → G w₁ c ∧
      ∀ r w₂, performs c w₁ r w₂ → EnsuresUnder w₂ (next r)

end EnsuresUnder

variable {performs : (c : C) → σ → R c → σ → Prop} {rely : σ → σ → Prop} {G : σ → C → Prop}
  {Q Q' : σ → Except ε α → Prop}

/-- The rule of consequence. -/
theorem EnsuresUnder.mono (sub : ∀ w result, Q w result → Q' w result) :
    ∀ {p : Program C R ε α} {w : σ}, EnsuresUnder performs rely G Q w p →
      EnsuresUnder performs rely G Q' w p
  | .done result, w, hp => sub w result hp
  | .stopped, _, _ => trivial
  | .call _ _, _, hp => fun w₁ hw₁ =>
      ⟨(hp w₁ hw₁).1, fun r w₂ hr => EnsuresUnder.mono sub ((hp w₁ hw₁).2 r w₂ hr)⟩

/-- **The rule of sequence.** -/
theorem EnsuresUnder.bind {P : σ → Except ε β → Prop} {f : β → Program C R ε α}
    (hok : ∀ w b, P w (.ok b) → EnsuresUnder performs rely G Q w (f b))
    (herror : ∀ w e, P w (.error e) → Q w (.error e)) :
    ∀ {p : Program C R ε β} {w : σ}, EnsuresUnder performs rely G P w p →
      EnsuresUnder performs rely G Q w (p >>= f)
  | .done (.ok b), w, hp => hok w b hp
  | .done (.error e), w, hp => herror w e hp
  | .stopped, _, _ => trivial
  | .call _ _, _, hp => fun w₁ hw₁ =>
      ⟨(hp w₁ hw₁).1, fun r w₂ hr => EnsuresUnder.bind hok herror ((hp w₁ hw₁).2 r w₂ hr)⟩

/-- **The rule of the handler.** -/
theorem EnsuresUnder.catchError {P : σ → Except ε α → Prop} {handler : ε → Program C R ε α}
    (hok : ∀ w a, P w (.ok a) → Q w (.ok a))
    (herror : ∀ w e, P w (.error e) → EnsuresUnder performs rely G Q w (handler e)) :
    ∀ {p : Program C R ε α} {w : σ}, EnsuresUnder performs rely G P w p →
      EnsuresUnder performs rely G Q w (p.catchError handler)
  | .done (.ok a), w, hp => hok w a hp
  | .done (.error e), w, hp => herror w e hp
  | .stopped, _, _ => trivial
  | .call _ _, _, hp => fun w₁ hw₁ =>
      ⟨(hp w₁ hw₁).1, fun r w₂ hr => EnsuresUnder.catchError hok herror ((hp w₁ hw₁).2 r w₂ hr)⟩

/-- **What a program ensures, it ensures after any interference.** -/
theorem EnsuresUnder.interfere [IsTrans σ rely]
    (stable : ∀ w w' result, Q w result → rely w w' → Q w' result) :
    ∀ {p : Program C R ε α} {w w' : σ}, EnsuresUnder performs rely G Q w p → rely w w' →
      EnsuresUnder performs rely G Q w' p
  | .done result, w, w', hp, hrely => stable w w' result hp hrely
  | .stopped, _, _, _, _ => trivial
  | .call _ _, _, _, hp, hrely => fun w₁ hw₁ => hp w₁ (trans_of rely hrely hw₁)

end Program

namespace Pool

variable {C : Type} {R : C → Type} {ε α σ : Type}

/-- One step of a pool of programs that make only calls that `G` allows. -/
theorem relyGuarantee_step {rules : Rules C R ε α σ} {I : σ → Prop} {rely : σ → σ → Prop}
    {G : σ → C → Prop} [IsTrans σ rely]
    (starts : ∀ world program, I world → rules.starts program →
      Program.EnsuresUnder rules.performs rely G (fun _ _ => True) world program)
    (refl : ∀ world, rely world world)
    (calls : ∀ c world answer world', I world → G world c → rules.performs c world answer world' →
      I world' ∧ rely world world')
    (changes : ∀ world world', I world → rules.changes world world' → I world' ∧ rely world world')
    {pool pool' : Pool C R ε α σ} {event : PoolEvent C R ε α} (hstep : Step rules pool event pool')
    (hpool : Holds I (Program.EnsuresUnder rules.performs rely G fun _ _ => True) pool) :
    Holds I (Program.EnsuresUnder rules.performs rely G fun _ _ => True) pool' ∧
      rely pool.world pool'.world := by
  have disturb : ∀ {world' : σ}, rely pool.world world' → ∀ q ∈ pool.programs,
      Program.EnsuresUnder rules.performs rely G (fun _ _ => True) world' q :=
    fun hrely q hq => (hpool.programs q hq).interfere (fun _ _ _ _ _ => trivial) hrely
  cases hstep with
  | start hstarts =>
      refine ⟨⟨hpool.world, fun q hq => ?_⟩, refl _⟩
      rcases List.mem_append.mp hq with hmem | hnew
      · exact hpool.programs q hmem
      · rw [List.mem_singleton.mp hnew]
        exact starts _ _ hpool.world hstarts
  | call hindex hallows hperforms =>
      obtain ⟨hguard, hnext⟩ := hpool.programs _ (List.mem_of_getElem? hindex) _ (refl _)
      obtain ⟨hworld, hrely⟩ := calls _ _ _ _ hpool.world hguard hperforms
      exact ⟨⟨hworld, forall_mem_set (disturb hrely) (hnext _ _ hperforms)⟩, hrely⟩
  | environment hchanges =>
      obtain ⟨hworld, hrely⟩ := changes _ _ hpool.world hchanges
      exact ⟨⟨hworld, disturb hrely⟩, hrely⟩

/-- **What a run of a pool does to the world** is an interference too. -/
theorem relyGuarantee_run {rules : Rules C R ε α σ} {I : σ → Prop} {rely : σ → σ → Prop}
    {G : σ → C → Prop} [IsTrans σ rely]
    (starts : ∀ world program, I world → rules.starts program →
      Program.EnsuresUnder rules.performs rely G (fun _ _ => True) world program)
    (refl : ∀ world, rely world world)
    (calls : ∀ c world answer world', I world → G world c → rules.performs c world answer world' →
      I world' ∧ rely world world')
    (changes : ∀ world world', I world → rules.changes world world' → I world' ∧ rely world world')
    {pool pool' : Pool C R ε α σ} {tr : List (PoolEvent C R ε α)}
    (h : Run (Step rules) pool tr pool')
    (hpool : Holds I (Program.EnsuresUnder rules.performs rely G fun _ _ => True) pool) :
    Holds I (Program.EnsuresUnder rules.performs rely G fun _ _ => True) pool' ∧
      rely pool.world pool'.world := by
  induction h with
  | nil => exact ⟨hpool, refl _⟩
  | snoc h hstep ih =>
      obtain ⟨hbetween, hrely⟩ := ih
      obtain ⟨hpool', hrely'⟩ := relyGuarantee_step starts refl calls changes hstep hbetween
      exact ⟨hpool', IsTrans.trans _ _ _ hrely hrely'⟩

/-- **The rule of parallel composition.**  The world keeps `I`, and every program goes on to make
only calls that `G` allows. -/
theorem relyGuarantee {rules : Rules C R ε α σ} {I : σ → Prop} {rely : σ → σ → Prop}
    {G : σ → C → Prop} [IsTrans σ rely]
    (starts : ∀ world program, I world → rules.starts program →
      Program.EnsuresUnder rules.performs rely G (fun _ _ => True) world program)
    (refl : ∀ world, rely world world)
    (calls : ∀ c world answer world', I world → G world c → rules.performs c world answer world' →
      I world' ∧ rely world world')
    (changes : ∀ world world', I world → rules.changes world world' → I world' ∧ rely world world')
    {pool pool' : Pool C R ε α σ} {tr : List (PoolEvent C R ε α)}
    (h : Run (Step rules) pool tr pool') (start : I pool.world) (empty : pool.programs = []) :
    Holds I (Program.EnsuresUnder rules.performs rely G fun _ _ => True) pool' := by
  refine (relyGuarantee_run starts refl calls changes h ⟨start, ?_⟩).1
  rw [empty]
  exact fun _ hq => absurd hq List.not_mem_nil

end Pool

end Xcs
