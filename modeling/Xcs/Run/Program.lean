import Xcs.Run.Basic

/-!
# Programs that call and are answered

An asynchronous program is a tree: it has returned or thrown, or it makes a call and goes on in a
way that depends on the answer.  Nothing is said about the answers, so a statement about every run
of the tree is a statement about every behaviour of whatever is called.  A program that is stopped
makes no more calls and does not return: a loop whose bound is used up is stopped.

`Ensures G Q h p` says of a program `p` with the history `h` that it makes a call only where `G`
allows it after the history so far, and that it returns or throws only what `Q` allows.

* `Ensures.bind`, `Ensures.catchError` and `Ensures.mono` are the rules of composition.
* `Ensures.of_run` is soundness: what is ensured at the start is ensured after every run.
* `Returns Q p` is the case of a program that is only asked for what it returns.
* `NeverStops p` says that a program has no bound that can be used up.
-/

namespace Xcs

/-- A program: a tree of calls. -/
inductive Program (C : Type) (R : C → Type) (ε α : Type) where
  | done (result : Except ε α)
  | stopped
  | call (c : C) (next : R c → Program C R ε α)

namespace Program

variable {C : Type} {R : C → Type} {ε α β : Type}

/-- A call with its answer. -/
abbrev Event (R : C → Type) := Σ c : C, R c

/-! ## Composition -/

/-- One program after another. -/
protected def bind (p : Program C R ε α) (f : α → Program C R ε β) : Program C R ε β :=
  match p with
  | .done (.ok a) => f a
  | .done (.error e) => .done (.error e)
  | .stopped => .stopped
  | .call c next => .call c fun r => (next r).bind f

instance : Monad (Program C R ε) where
  pure a := .done (.ok a)
  bind := Program.bind

/-- `try { p } catch (e) { handler(e) }` -/
def catchError (p : Program C R ε α) (handler : ε → Program C R ε α) : Program C R ε α :=
  match p with
  | .done (.ok a) => .done (.ok a)
  | .done (.error e) => handler e
  | .stopped => .stopped
  | .call c next => .call c fun r => (next r).catchError handler

/-- The same where the handler throws errors of another type. -/
def handle {ε' : Type} (p : Program C R ε α) (handler : ε → Program C R ε' α) :
    Program C R ε' α :=
  match p with
  | .done (.ok a) => .done (.ok a)
  | .done (.error e) => handler e
  | .stopped => .stopped
  | .call c next => .call c fun r => (next r).handle handler

/-- A call that is answered with a value. -/
def perform (c : C) : Program C R ε (R c) :=
  .call c fun r => .done (.ok r)

/-- `throw e` -/
def throwing (e : ε) : Program C R ε α :=
  .done (.error e)

/-! ## What a program ensures -/

section Ensures

variable (G : List (Event R) → C → Prop) (Q : List (Event R) → Except ε α → Prop)

/-- Calls are allowed by `G`, results by `Q`, each after the history up to there. -/
def Ensures : List (Event R) → Program C R ε α → Prop
  | h, .done result => Q h result
  | _, .stopped => True
  | h, .call c next => G h c ∧ ∀ r, Ensures (h ++ [⟨c, r⟩]) (next r)

end Ensures

variable {G : List (Event R) → C → Prop} {Q Q' : List (Event R) → Except ε α → Prop}
  {h : List (Event R)}

/-- The rule of consequence. -/
theorem Ensures.mono (sub : ∀ h result, Q h result → Q' h result) :
    ∀ {p : Program C R ε α} {h : List (Event R)}, Ensures G Q h p → Ensures G Q' h p
  | .done result, h, hp => sub h result hp
  | .stopped, _, _ => trivial
  | .call _ _, _, hp => ⟨hp.1, fun r => Ensures.mono sub (hp.2 r)⟩

/-- What is ensured under a guard is ensured under a weaker one. -/
theorem Ensures.mono_guard {G' : List (Event R) → C → Prop} (sub : ∀ h c, G h c → G' h c) :
    ∀ {p : Program C R ε α} {h : List (Event R)}, Ensures G Q h p → Ensures G' Q h p
  | .done _, _, hp => hp
  | .stopped, _, _ => trivial
  | .call c _, h, hp => ⟨sub h c hp.1, fun r => Ensures.mono_guard sub (hp.2 r)⟩

/-- **The rule of sequence.**  What the first program returns is what the second one starts from,
and what it throws is thrown. -/
theorem Ensures.bind {P : List (Event R) → Except ε β → Prop} {f : β → Program C R ε α}
    (hok : ∀ h b, P h (.ok b) → Ensures G Q h (f b))
    (herror : ∀ h e, P h (.error e) → Q h (.error e)) :
    ∀ {p : Program C R ε β} {h : List (Event R)}, Ensures G P h p → Ensures G Q h (p >>= f)
  | .done (.ok b), h, hp => hok h b hp
  | .done (.error e), h, hp => herror h e hp
  | .stopped, _, _ => trivial
  | .call _ _, _, hp => ⟨hp.1, fun r => Ensures.bind hok herror (hp.2 r)⟩

/-- **The rule of the handler.** -/
theorem Ensures.catchError {P : List (Event R) → Except ε α → Prop}
    {handler : ε → Program C R ε α} (hok : ∀ h a, P h (.ok a) → Q h (.ok a))
    (herror : ∀ h e, P h (.error e) → Ensures G Q h (handler e)) :
    ∀ {p : Program C R ε α} {h : List (Event R)}, Ensures G P h p →
      Ensures G Q h (p.catchError handler)
  | .done (.ok a), h, hp => hok h a hp
  | .done (.error e), h, hp => herror h e hp
  | .stopped, _, _ => trivial
  | .call _ _, _, hp => ⟨hp.1, fun r => Ensures.catchError hok herror (hp.2 r)⟩

/-- The rule of sequence after a computation that makes no call. -/
theorem Ensures.bind_done {x : Except ε β} {f : β → Program C R ε α}
    (hok : ∀ b, x = .ok b → Ensures G Q h (f b)) (herror : ∀ e, x = .error e → Q h (.error e)) :
    Ensures G Q h (.done x >>= f) := by
  cases x with
  | error e => exact herror e rfl
  | ok b => exact hok b rfl

/-- The rule of sequence after a call. -/
theorem Ensures.bind_perform {c : C} {f : R c → Program C R ε α} (hcall : G h c)
    (hnext : ∀ r, Ensures G Q (h ++ [⟨c, r⟩]) (f r)) :
    Ensures G Q h (Program.perform c >>= f) :=
  ⟨hcall, hnext⟩

/-- The rule of a call. -/
theorem Ensures.perform {c : C} {Q : List (Event R) → Except ε (R c) → Prop} (hcall : G h c)
    (hresult : ∀ r, Q (h ++ [⟨c, r⟩]) (.ok r)) :
    Ensures G Q h (Program.perform c) :=
  ⟨hcall, hresult⟩

/-! ## Runs -/

/-- A call is answered. -/
inductive Step : Program C R ε α → Event R → Program C R ε α → Prop
  | call (c : C) (next : R c → Program C R ε α) (r : R c) : Step (.call c next) ⟨c, r⟩ (next r)

/-- **Soundness.**  Whatever the calls are answered, what was ensured at the start is ensured of
the rest of the program. -/
theorem Ensures.of_run {p q : Program C R ε α} {tr : List (Event R)}
    (hp : Ensures G Q h p) (hrun : Run Step p tr q) : Ensures G Q (h ++ tr) q := by
  refine hrun.induction (P := fun tr q => Ensures G Q (h ++ tr) q) ?_ ?_
  · rwa [List.append_nil]
  · rintro tr q e q' - hq ⟨c, next, r⟩
    rw [← List.append_assoc]
    exact hq.2 r

/-- A call that a run comes to is allowed after the history of the run. -/
theorem Ensures.call_of_run {p : Program C R ε α} {tr : List (Event R)} {c : C}
    {next : R c → Program C R ε α} (hp : Ensures G Q [] p) (hrun : Run Step p tr (.call c next)) :
    G tr c :=
  (hp.of_run hrun).1

/-- Every call of a run is allowed after the history up to there. -/
theorem Ensures.guard_of_run {p q : Program C R ε α} {before after : List (Event R)} {e : Event R}
    (hp : Ensures G Q [] p) (hrun : Run Step p (before ++ e :: after) q) : G before e.1 := by
  obtain ⟨p', hbefore, hafter⟩ := hrun.split
  obtain ⟨_, ⟨c, next, r⟩, -⟩ := hafter.cons_inv
  exact hp.call_of_run hbefore

/-- What a run returns or throws is allowed after the history of the run. -/
theorem Ensures.result_of_run {p : Program C R ε α} {tr : List (Event R)} {result : Except ε α}
    (hp : Ensures G Q [] p) (hrun : Run Step p tr (.done result)) : Q tr result :=
  hp.of_run hrun

/-! ## What a program returns -/

/-- A program returns only values with a property, whatever is answered. -/
def Returns (Q : α → Prop) : Program C R ε α → Prop
  | .done (.ok a) => Q a
  | .done (.error _) => True
  | .stopped => True
  | .call _ next => ∀ r, Returns Q (next r)

/-- The rule of consequence for what is returned. -/
theorem Returns.mono {Q Q' : α → Prop} (sub : ∀ a, Q a → Q' a) :
    ∀ {p : Program C R ε α}, Returns Q p → Returns Q' p
  | .done (.ok a), hp => sub a hp
  | .done (.error _), _ => trivial
  | .stopped, _ => trivial
  | .call _ _, hp => fun r => Returns.mono sub (hp r)

/-- The rule of sequence for what is returned. -/
theorem Returns.bind {P : β → Prop} {Q : α → Prop} {f : β → Program C R ε α}
    (hf : ∀ b, P b → Returns Q (f b)) :
    ∀ {p : Program C R ε β}, Returns P p → Returns Q (p >>= f)
  | .done (.ok b), hp => hf b hp
  | .done (.error _), _ => trivial
  | .stopped, _ => trivial
  | .call _ _, hp => fun r => Returns.bind hf (hp r)

/-- A computation that makes no call. -/
theorem Returns.done {Q : α → Prop} {x : Except ε α} (h : ∀ a, x = .ok a → Q a) :
    Returns Q (.done x : Program C R ε α) := by
  cases x with
  | error e => exact trivial
  | ok a => exact h a rfl

/-- **Soundness.**  What a run returns has the property. -/
theorem Returns.of_run {Q : α → Prop} {p : Program C R ε α} (hp : Returns Q p)
    {tr : List (Event R)} {a : α} (hrun : Run Step p tr (.done (.ok a))) : Q a := by
  refine hrun.invariant (P := fun q => Returns Q q) ?_ hp
  rintro q e q' hq ⟨c, next, r⟩
  exact hq r

/-! ## Programs that are not stopped -/

/-- A program that is not stopped, whatever is answered. -/
def NeverStops : Program C R ε α → Prop
  | .done _ => True
  | .stopped => False
  | .call _ next => ∀ r, NeverStops (next r)

theorem NeverStops.bind {f : β → Program C R ε α} (hf : ∀ b, NeverStops (f b)) :
    ∀ {p : Program C R ε β}, NeverStops p → NeverStops (p >>= f)
  | .done (.ok b), _ => hf b
  | .done (.error _), _ => trivial
  | .stopped, hp => hp
  | .call _ _, hp => fun r => NeverStops.bind hf (hp r)

theorem NeverStops.handle {ε' : Type} {handler : ε → Program C R ε' α}
    (hhandler : ∀ e, NeverStops (handler e)) :
    ∀ {p : Program C R ε α}, NeverStops p → NeverStops (p.handle handler)
  | .done (.ok _), _ => trivial
  | .done (.error e), _ => hhandler e
  | .stopped, hp => hp
  | .call _ _, hp => fun r => NeverStops.handle hhandler (hp r)

/-! ## An environment that answers -/

/-- The first calls of a program whose environment answers a call always in the same way, and what
remains of the program. -/
def advance (answer : (c : C) → R c) :
    ℕ → Program C R ε α → List (Event R) × Program C R ε α
  | n + 1, .call c next =>
      let rest := advance answer n (next (answer c))
      (⟨c, answer c⟩ :: rest.1, rest.2)
  | _, p => ([], p)

theorem run_advance (answer : (c : C) → R c) : ∀ (n : ℕ) (p : Program C R ε α),
    Run Step p (advance answer n p).1 (advance answer n p).2
  | 0, p => by
      cases p <;> exact .nil _
  | n + 1, .done _ => .nil _
  | n + 1, .stopped => .nil _
  | n + 1, .call c next =>
      (Run.single (.call c next (answer c))).append (run_advance answer n _)

end Program

end Xcs
