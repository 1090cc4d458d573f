import Xcs.Run.Program

/-!
# Programs that share a world

Several programs run at the same time on one world.  A call is one atomic step: it is answered, and
it may change the world.  Between two calls of a program the others may make any number of theirs,
programs may start, and the world may change by itself, as a clock does.

* `Pool.Step` is that interleaving, with a condition on the calls that are made.
* `Pool.invariant` is the rule of Owicki and Gries: the world keeps an invariant and every program
  an assertion about the world, when each call establishes the assertion of what remains of its
  program and keeps the assertions of the others.
-/

namespace Xcs

variable {C : Type} {R : C → Type} {ε α σ : Type}

/-- Some programs and the world they share. -/
structure Pool (C : Type) (R : C → Type) (ε α σ : Type) where
  world : σ
  programs : List (Program C R ε α)

/-- What happens to a pool. -/
inductive PoolEvent (C : Type) (R : C → Type) (ε α : Type) where
  | start (program : Program C R ε α)
  | call (index : ℕ) (c : C) (answer : R c)
  | environment

namespace Pool

/-- The rules of a pool: which programs may start, what a call does and answers, what the world does
by itself, and which calls are considered, by the world they lead to. -/
structure Rules (C : Type) (R : C → Type) (ε α σ : Type) where
  starts : Program C R ε α → Prop
  performs : (c : C) → σ → R c → σ → Prop
  changes : σ → σ → Prop
  allows : Pool C R ε α σ → C → σ → Prop

/-- The steps of a pool. -/
inductive Step (rules : Rules C R ε α σ) :
    Pool C R ε α σ → PoolEvent C R ε α → Pool C R ε α σ → Prop
  | start {world : σ} {programs : List (Program C R ε α)} {program : Program C R ε α} :
      rules.starts program →
      Step rules ⟨world, programs⟩ (.start program) ⟨world, programs ++ [program]⟩
  | call {world world' : σ} {programs : List (Program C R ε α)} {index : ℕ} {c : C}
      {next : R c → Program C R ε α} {answer : R c} :
      programs[index]? = some (.call c next) → rules.allows ⟨world, programs⟩ c world' →
      rules.performs c world answer world' →
      Step rules ⟨world, programs⟩ (.call index c answer)
        ⟨world', programs.set index (next answer)⟩
  | environment {world world' : σ} {programs : List (Program C R ε α)} :
      rules.changes world world' →
      Step rules ⟨world, programs⟩ .environment ⟨world', programs⟩

/-- The same rules with every call allowed. -/
def Rules.unrestricted (rules : Rules C R ε α σ) : Rules C R ε α σ :=
  { rules with allows := fun _ _ _ => True }

/-- The world satisfies `I`, and every program `A` of the world. -/
structure Holds (I : σ → Prop) (A : σ → Program C R ε α → Prop) (pool : Pool C R ε α σ) :
    Prop where
  world : I pool.world
  programs : ∀ program ∈ pool.programs, A pool.world program

variable {rules : Rules C R ε α σ} {I : σ → Prop} {A : σ → Program C R ε α → Prop}

/-- A property of every program is one of every program but the one that made its call, and of what
remains of that one. -/
theorem forall_mem_set {P : Program C R ε α → Prop} {programs : List (Program C R ε α)} {index : ℕ}
    {program : Program C R ε α} (hall : ∀ q ∈ programs, P q) (hnew : P program) :
    ∀ q ∈ programs.set index program, P q := by
  intro q hq
  rcases List.mem_or_eq_of_mem_set hq with hmem | rfl
  · exact hall q hmem
  · exact hnew

/-- **The rule of Owicki and Gries.** -/
theorem invariant
    (starts : ∀ world program, I world → rules.starts program → A world program)
    (calls : ∀ (pool : Pool C R ε α σ) c next answer world', Holds I A pool →
      .call c next ∈ pool.programs → rules.allows pool c world' →
      rules.performs c pool.world answer world' →
      I world' ∧ A world' (next answer) ∧ ∀ q ∈ pool.programs, A world' q)
    (changes : ∀ world world', I world → rules.changes world world' →
      I world' ∧ ∀ q, A world q → A world' q)
    {pool pool' : Pool C R ε α σ} {tr : List (PoolEvent C R ε α)}
    (h : Run (Step rules) pool tr pool') (start : Holds I A pool) : Holds I A pool' := by
  refine h.invariant (P := Holds I A) ?_ start
  intro pool e pool' hpool hstep
  cases hstep with
  | start hstarts =>
      refine ⟨hpool.world, ?_⟩
      intro q hq
      rcases List.mem_append.mp hq with hmem | hnew
      · exact hpool.programs q hmem
      · rw [List.mem_singleton.mp hnew]
        exact starts _ _ hpool.world hstarts
  | call hindex hallows hperforms =>
      obtain ⟨hworld, hnext, hothers⟩ := calls _ _ _ _ _ hpool (List.mem_of_getElem? hindex)
        hallows hperforms
      exact ⟨hworld, forall_mem_set hothers hnext⟩
  | environment hchanges =>
      obtain ⟨hworld, hprograms⟩ := changes _ _ hpool.world hchanges
      exact ⟨hworld, fun q hq => hprograms q (hpool.programs q hq)⟩

end Pool

end Xcs
