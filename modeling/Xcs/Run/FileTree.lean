import Mathlib.Data.List.Nodup
import Mathlib.Logic.Function.Basic
import Xcs.Run.World

/-!
# File trees

A tree of files is a partial function on paths; above everything that exists there is a directory.
A path is the list of its names, the innermost first.  A call to the file system that succeeds
changes the path it names and nothing else, and one that fails changes nothing.  Which calls fail is
left open, except that nothing keeps a file or an empty directory from being removed.

`Grown w₀ w created` says that a tree `w` is `w₀` with some paths more, of which the list has the
latest first.

* `Grown.mkdir`, `Grown.link` and `Grown.chmod`: what a call adds.
* `Grown.removal`: a path that was added last can be removed, and then the others remain.
* `Grown.eq_of_nil` and `Grown.preserves`: nothing that was there before is changed.
-/

namespace Xcs

/-- What a path names. -/
inductive FileNode (F : Type) where
  | file (content : F)
  | directory (mode : ℕ)

/-- A tree of files. -/
@[ext] structure FileTree (N F : Type) where
  node : List N → Option (FileNode F)
  closed : ∀ name path, node (name :: path) ≠ none → ∃ mode, node path = some (.directory mode)

/-- A call to a file system. -/
inductive FileCall (N : Type) where
  | mkdir (path : List N) (mode : ℕ)
  | link (existing path : List N)
  | chmod (path : List N) (mode : ℕ)
  | unlink (path : List N)
  | rmdir (path : List N)

/-- What a call fails with; `EEXIST` is told apart. -/
inductive FileError where
  | alreadyExists
  | other

/-- What a call is answered. -/
abbrev FileCall.Answer {N : Type} (_ : FileCall N) : Type := Except FileError Unit

namespace FileTree

variable {N F : Type}

/-- Whether a path names a file. -/
def IsFile (w : FileTree N F) (path : List N) : Prop :=
  ∃ content, w.node path = some (.file content)

/-- Whether a path names a directory. -/
def IsDirectory (w : FileTree N F) (path : List N) : Prop :=
  ∃ mode, w.node path = some (.directory mode)

/-- Whether a path names a directory without entries. -/
def IsEmptyDirectory (w : FileTree N F) (path : List N) : Prop :=
  w.IsDirectory path ∧ ∀ name, w.node (name :: path) = none

variable [DecidableEq N]

/-- A tree with another node at one path. -/
def Updates (w : FileTree N F) (path : List N) (node : Option (FileNode F))
    (w' : FileTree N F) : Prop :=
  w'.node = Function.update w.node path node

/-- What a call may be answered, and the tree after it.  A hard link is a second name of the same
node.  A node is added only where there is a directory for it, since what comes out is a tree. -/
inductive Performs : (call : FileCall N) → FileTree N F → call.Answer → FileTree N F → Prop
  | mkdir {w w' : FileTree N F} {path : List N} {mode : ℕ} :
      w.node path = none → w.Updates path (some (.directory mode)) w' →
      Performs (.mkdir path mode) w (.ok ()) w'
  | mkdirFailed {w : FileTree N F} {path : List N} {mode : ℕ} (e : FileError) :
      Performs (.mkdir path mode) w (.error e) w
  | link {w w' : FileTree N F} {existing path : List N} {content : F} :
      w.node existing = some (.file content) → w.node path = none →
      w.Updates path (some (.file content)) w' → Performs (.link existing path) w (.ok ()) w'
  | linkFailed {w : FileTree N F} {existing path : List N} (e : FileError) :
      Performs (.link existing path) w (.error e) w
  | chmod {w w' : FileTree N F} {path : List N} {mode : ℕ} :
      w.IsDirectory path → w.Updates path (some (.directory mode)) w' →
      Performs (.chmod path mode) w (.ok ()) w'
  | chmodFailed {w : FileTree N F} {path : List N} {mode : ℕ} (e : FileError) :
      Performs (.chmod path mode) w (.error e) w
  | unlink {w w' : FileTree N F} {path : List N} :
      w.IsFile path → w.Updates path none w' → Performs (.unlink path) w (.ok ()) w'
  | unlinkFailed {w : FileTree N F} {path : List N} (e : FileError) :
      ¬ w.IsFile path → Performs (.unlink path) w (.error e) w
  | rmdir {w w' : FileTree N F} {path : List N} :
      w.IsEmptyDirectory path → w.Updates path none w' → Performs (.rmdir path) w (.ok ()) w'
  | rmdirFailed {w : FileTree N F} {path : List N} (e : FileError) :
      ¬ w.IsEmptyDirectory path → Performs (.rmdir path) w (.error e) w

/-- **A call that fails changes nothing.** -/
theorem Performs.eq_of_error {w w' : FileTree N F} {call : FileCall N} {e : FileError}
    (h : Performs call w (.error e) w') : w' = w := by
  cases h <;> rfl

/-! ## Trees that have grown -/

/-- A path that was created, as a directory or as a file. -/
structure Created (N : Type) where
  path : List N
  isDirectory : Bool

/-- What was created is there. -/
def Created.Present (w : FileTree N F) (c : Created N) : Prop :=
  if c.isDirectory then w.IsDirectory c.path else w.IsFile c.path

/-- The call that removes what was created. -/
def Created.removal (c : Created N) : FileCall N :=
  if c.isDirectory then .rmdir c.path else .unlink c.path

omit [DecidableEq N] in
theorem Created.Present.ne_none {w : FileTree N F} {c : Created N} (h : c.Present w) :
    w.node c.path ≠ none := by
  unfold Present at h
  split_ifs at h
  · obtain ⟨mode, hmode⟩ := h
    rw [hmode]
    exact Option.some_ne_none _
  · obtain ⟨content, hcontent⟩ := h
    rw [hcontent]
    exact Option.some_ne_none _

omit [DecidableEq N] in
/-- What is there depends on the node of its path only. -/
theorem Created.Present.congr {w w' : FileTree N F} {c : Created N} (h : c.Present w)
    (hnode : w'.node c.path = w.node c.path) : c.Present w' := by
  unfold Present IsDirectory IsFile at h ⊢
  rwa [hnode]

/-- A tree with some paths more, each created after everything behind it in the list. -/
structure Grown (w₀ w : FileTree N F) (created : List (Created N)) : Prop where
  same : ∀ path, path ∉ created.map Created.path → w.node path = w₀.node path
  fresh : ∀ c ∈ created, w₀.node c.path = none
  present : ∀ c ∈ created, c.Present w
  nodup : (created.map Created.path).Nodup
  ordered : created.Pairwise fun c d => ∀ name, d.path ≠ name :: c.path

namespace Grown

variable {w₀ w w' : FileTree N F} {created : List (Created N)} {c : Created N}

omit [DecidableEq N]

theorem refl (w : FileTree N F) : Grown w w [] :=
  ⟨fun _ _ => rfl, fun _ hc => (by cases hc), fun _ hc => (by cases hc), List.nodup_nil,
    List.Pairwise.nil⟩

theorem eq_of_nil (h : Grown w₀ w []) : w = w₀ :=
  FileTree.ext (funext fun path => h.same path List.not_mem_nil)

/-- **What was there before is there as it was.** -/
theorem preserves (h : Grown w₀ w created) {path : List N} (hpath : w₀.node path ≠ none) :
    w.node path = w₀.node path := by
  refine h.same path fun hmem => ?_
  obtain ⟨c, hc, rfl⟩ := List.mem_map.mp hmem
  exact hpath (h.fresh c hc)

/-- What was created is among the paths that are there. -/
theorem notMem_of_node_eq_none (h : Grown w₀ w created) {path : List N}
    (hnone : w.node path = none) : path ∉ created.map Created.path := by
  intro hmem
  obtain ⟨c, hc, rfl⟩ := List.mem_map.mp hmem
  exact (h.present c hc).ne_none hnone

/-- A directory that was created last is empty. -/
theorem node_child_eq_none (h : Grown w₀ w (c :: created)) (name : N) :
    w.node (name :: c.path) = none := by
  by_contra hchild
  by_cases hmem : name :: c.path ∈ (c :: created).map Created.path
  · obtain ⟨d, hd, hpath⟩ := List.mem_map.mp hmem
    rcases List.mem_cons.mp hd with rfl | hd
    · exact absurd (congrArg List.length hpath) (by rw [List.length_cons]; omega)
    · exact (List.pairwise_cons.mp h.ordered).1 d hd name hpath
  · -- the child would have been there before, and so would its directory
    rw [h.same _ hmem] at hchild
    obtain ⟨mode, hmode⟩ := w₀.closed name c.path hchild
    rw [h.fresh c List.mem_cons_self] at hmode
    cases hmode

variable [DecidableEq N]

/-- A path more. -/
theorem cons (h : Grown w₀ w created) {node : FileNode F} (hnone : w.node c.path = none)
    (hupdate : w.Updates c.path (some node) w') (hpresent : c.Present w') :
    Grown w₀ w' (c :: created) := by
  have hnew := h.notMem_of_node_eq_none hnone
  have hother : ∀ path, path ≠ c.path → w'.node path = w.node path := by
    intro path hne
    rw [hupdate, Function.update_of_ne hne]
  refine ⟨fun path hpath => ?_, ?_, ?_, ?_, ?_⟩
  · rw [List.map_cons, List.mem_cons, not_or] at hpath
    rw [hother path hpath.1, h.same path hpath.2]
  · refine List.forall_mem_cons.mpr ⟨?_, h.fresh⟩
    rw [← h.same _ hnew, hnone]
  · refine List.forall_mem_cons.mpr ⟨hpresent, fun d hd => ?_⟩
    refine (h.present d hd).congr (hother _ fun hpath => ?_)
    exact hnew (hpath ▸ List.mem_map_of_mem hd)
  · rw [List.map_cons]
    exact List.nodup_cons.mpr ⟨hnew, h.nodup⟩
  · refine List.pairwise_cons.mpr ⟨fun d hd name hpath => ?_, h.ordered⟩
    -- the directory of what is there is there
    have hthere := (h.present d hd).ne_none
    rw [hpath] at hthere
    obtain ⟨mode, hmode⟩ := w.closed name c.path hthere
    rw [hnone] at hmode
    cases hmode

theorem mkdir (h : Grown w₀ w created) {path : List N} {mode : ℕ}
    (hcall : Performs (.mkdir path mode) w (.ok ()) w') :
    Grown w₀ w' (⟨path, true⟩ :: created) := by
  cases hcall with
  | mkdir hnone hupdate =>
      refine h.cons hnone hupdate ⟨mode, ?_⟩
      rw [hupdate, Function.update_self]

theorem link (h : Grown w₀ w created) {existing path : List N}
    (hcall : Performs (.link existing path) w (.ok ()) w') :
    Grown w₀ w' (⟨path, false⟩ :: created) := by
  cases hcall with
  | link _ hnone hupdate =>
      exact h.cons hnone hupdate ⟨_, (congrFun hupdate path).trans (Function.update_self path _ _)⟩

theorem chmod (h : Grown w₀ w created) {path : List N} {mode : ℕ} (hpath : ⟨path, true⟩ ∈ created)
    (hcall : Performs (.chmod path mode) w (.ok ()) w') : Grown w₀ w' created := by
  cases hcall with
  | chmod _ hupdate =>
      have hother : ∀ other, other ≠ path → w'.node other = w.node other := by
        intro other hne
        rw [hupdate, Function.update_of_ne hne]
      refine ⟨fun other hnot => ?_, h.fresh, fun d hd => ?_, h.nodup, h.ordered⟩
      · rw [hother other, h.same other hnot]
        rintro rfl
        exact hnot (List.mem_map_of_mem (f := Created.path) hpath)
      · by_cases hd' : d.path = path
        · obtain rfl : d = ⟨path, true⟩ := List.inj_on_of_nodup_map h.nodup hd hpath hd'
          refine ⟨mode, ?_⟩
          rw [hupdate, Function.update_self]
        · exact (h.present d hd).congr (hother _ hd')

/-- **What was created last is removed**, and nothing else. -/
theorem removal (h : Grown w₀ w (c :: created)) {r : c.removal.Answer}
    (hcall : Performs c.removal w r w') : Grown w₀ w' created := by
  have hupdates : w.Updates c.path none w' := by
    have hpresent := h.present c List.mem_cons_self
    have hchild := h.node_child_eq_none
    obtain ⟨path, isDirectory⟩ := c
    cases isDirectory with
    | true =>
        cases hcall with
        | rmdir _ hupdate => exact hupdate
        | rmdirFailed e hnot => exact absurd ⟨hpresent, hchild⟩ hnot
    | false =>
        cases hcall with
        | unlink _ hupdate => exact hupdate
        | unlinkFailed e hnot => exact absurd hpresent hnot
  obtain ⟨hnew, hnodup⟩ := List.nodup_cons.mp h.nodup
  refine ⟨fun path hpath => ?_, fun d hd => h.fresh d (List.mem_cons_of_mem _ hd), fun d hd => ?_,
    hnodup, (List.pairwise_cons.mp h.ordered).2⟩
  · rw [hupdates]
    by_cases hc : path = c.path
    · rw [hc, Function.update_self, h.fresh c List.mem_cons_self]
    · rw [Function.update_of_ne hc]
      refine h.same path fun hmem => ?_
      rcases List.mem_cons.mp hmem with rfl | hmem
      · exact hc rfl
      · exact hpath hmem
  · refine (h.present d (List.mem_cons_of_mem _ hd)).congr ?_
    rw [hupdates, Function.update_of_ne]
    rintro hd'
    exact hnew (hd' ▸ List.mem_map_of_mem hd)

end Grown
end FileTree
end Xcs
