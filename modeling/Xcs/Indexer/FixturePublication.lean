import Xcs.Indexer.FixtureLayout
import Xcs.Run.FileTree

/-!
# Publishing a fixture bundle

A bundle that was written to a temporary directory is linked into its output directory, the manifest
last.  When a call fails, what was created so far is removed again, the latest first.

* `ensures_publishFiles`: at every call, what the progress records is what was created.
* `ensures_rollback`: the clean-up removes it.
* `publishBundleNoClobber_allOrNothing` is the result for every run.
-/

namespace Xcs
namespace Indexer
namespace Fixture

open Js Json Xcs.Core FileTree

/-! ## The program -/

/-- A program that calls the file system. -/
abbrev FileProgram (ε α : Type) := Program (FileCall JsString) FileCall.Answer ε α

/-- The path of the manifest. -/
def manifestFile (directory : List JsString) : List JsString :=
  js "manifest.json" :: directory

/-- The directories of a bundle. -/
def indexesDirectory (directory : List JsString) : List JsString := js "indexes" :: directory

def ledgersDirectory (directory : List JsString) : List JsString := js "ledgers" :: directory

/-- The variables of `publishBundleNoClobber`. -/
structure Progress where
  outputCreated : Bool
  indexesCreated : Bool
  ledgersCreated : Bool
  linkedChunkCount : ℕ
  lastLinkedLedgerIndex : ℤ
  manifestLinked : Bool

/-- Their values at the start. -/
def Progress.start (manifest : LedgerFixtureBundleManifest) : Progress where
  outputCreated := false
  indexesCreated := false
  ledgersCreated := false
  linkedChunkCount := 0
  lastLinkedLedgerIndex := manifest.range.first - 1
  manifestLinked := false

/-- A part of the body.  What it throws comes with the variables at that time. -/
abbrev Publishing (α : Type) := FileProgram (Progress × FixtureError) α

/-- A call whose error is thrown. -/
def attempt (progress : Progress) (call : FileCall JsString) : Publishing Unit := do
  let answer ← Program.perform call
  match answer with
  | .ok () => pure ()
  | .error _ => Program.throwing (progress, .other)

/-- `mkdir(outputDirectory, { mode: 0o700 })` -/
def createOutput (output : List JsString) (progress : Progress) : Publishing Unit := do
  let answer ← Program.perform (FileCall.mkdir output 0o700)
  match answer with
  | .ok () => pure ()
  | .error .alreadyExists =>
      Program.throwing
        (progress, .bundle .outputExists (js "fixture output directory already exists"))
  | .error .other => Program.throwing (progress, .other)

/-- The loop over the chunks. -/
def linkChunks (temporary output : List JsString) :
    List LedgerFixtureIndexChunk → Progress → Publishing Progress
  | [], progress => pure progress
  | chunk :: chunks, progress => do
      attempt progress (.link (indexChunkFile temporary chunk.toIndexRange)
        (indexChunkFile output chunk.toIndexRange))
      linkChunks temporary output chunks
        { progress with linkedChunkCount := progress.linkedChunkCount + 1 }

/-- The loop over the ledgers, with the number of ledgers that are left. -/
def linkLedgers (temporary output : List JsString) : ℕ → ℕ → Progress → Publishing Progress
  | 0, _, progress => pure progress
  | n + 1, ledgerIndex, progress => do
      attempt progress (.link (ledgerFile temporary ledgerIndex) (ledgerFile output ledgerIndex))
      linkLedgers temporary output n (ledgerIndex + 1)
        { progress with lastLinkedLedgerIndex := ledgerIndex }

/-- The body of `publishBundleNoClobber`. -/
def publishFiles (temporary output : List JsString) (manifest : LedgerFixtureBundleManifest) :
    Publishing Unit := do
  let progress := Progress.start manifest
  createOutput output progress
  let progress := { progress with outputCreated := true }
  attempt progress (.mkdir (indexesDirectory output) 0o700)
  let progress := { progress with indexesCreated := true }
  attempt progress (.mkdir (ledgersDirectory output) 0o700)
  let progress := { progress with ledgersCreated := true }
  let progress ← linkChunks temporary output manifest.chunks progress
  let progress ← linkLedgers temporary output (manifest.range.last + 1 - manifest.range.first)
    manifest.range.first progress
  -- The manifest is the completion marker and is linked only after all committed evidence.
  attempt progress (.link (manifestFile temporary) (manifestFile output))
  let progress := { progress with manifestLinked := true }
  attempt progress (.chmod (indexesDirectory output) 0o755)
  attempt progress (.chmod (ledgersDirectory output) 0o755)
  attempt progress (.chmod output 0o755)

/-- A call whose error is ignored: `.catch(() => undefined)`. -/
def ignoring (call : FileCall JsString) : FileProgram FixtureError Unit := do
  let _ ← Program.perform call
  pure ()

/-- The same where a variable says so. -/
def ignoringIf (condition : Bool) (call : FileCall JsString) : FileProgram FixtureError Unit :=
  if condition then ignoring call else pure ()

/-- The loop back over the ledgers, with the number of ledgers that are left. -/
def unlinkLedgers (output : List JsString) (first : ℕ) : ℕ → FileProgram FixtureError Unit
  | 0 => pure ()
  | n + 1 => do
      ignoring (.unlink (ledgerFile output (first + n)))
      unlinkLedgers output first n

/-- The loop back over the chunks.  A position without a chunk is a `TypeError`. -/
def unlinkChunks (output : List JsString) (chunks : List LedgerFixtureIndexChunk) :
    ℕ → FileProgram FixtureError Unit
  | 0 => pure ()
  | position + 1 => do
      match chunks[position]? with
      | none => Program.throwing .other
      | some chunk => do
          ignoring (.unlink (indexChunkFile output chunk.toIndexRange))
          unlinkChunks output chunks position

/-- The clean-up of `publishBundleNoClobber`. -/
def rollback (output : List JsString) (manifest : LedgerFixtureBundleManifest)
    (progress : Progress) : FileProgram FixtureError Unit := do
  ignoringIf progress.manifestLinked (.unlink (manifestFile output))
  unlinkLedgers output manifest.range.first
    (progress.lastLinkedLedgerIndex + 1 - manifest.range.first).toNat
  unlinkChunks output manifest.chunks progress.linkedChunkCount
  ignoringIf progress.ledgersCreated (.rmdir (ledgersDirectory output))
  ignoringIf progress.indexesCreated (.rmdir (indexesDirectory output))
  ignoringIf progress.outputCreated (.rmdir output)

/-- `publishBundleNoClobber` -/
def publishBundleNoClobber (temporary output : List JsString)
    (manifest : LedgerFixtureBundleManifest) : FileProgram FixtureError Unit :=
  (publishFiles temporary output manifest).handle fun thrown => do
    rollback output manifest thrown.1
    match thrown.2 with
    | .bundle code message => Program.throwing (.bundle code message)
    | .other =>
        Program.throwing (.bundle .sourceUnavailable (js "fixture bundle publication failed"))

/-! ## What was created -/

section Created

variable (output : List JsString) (manifest : LedgerFixtureBundleManifest)

/-- The file of a chunk, and of a ledger, as something that was created. -/
def createdChunk (chunk : LedgerFixtureIndexChunk) : Created JsString :=
  ⟨indexChunkFile output chunk.toIndexRange, false⟩

def createdLedger (ledgerIndex : ℕ) : Created JsString :=
  ⟨ledgerFile output ledgerIndex, false⟩

/-- The chunks that were linked, the latest first. -/
def createdChunks (n : ℕ) : List (Created JsString) :=
  (manifest.chunks.take n).reverse.map (createdChunk output)

/-- The ledgers that were linked, the latest first. -/
def createdLedgers : ℕ → List (Created JsString)
  | 0 => []
  | n + 1 => createdLedger output (manifest.range.first + n) :: createdLedgers n

/-- What a variable says was created. -/
def createdIf (condition : Bool) (c : Created JsString) : List (Created JsString) :=
  if condition then [c] else []

/-- What the progress says was created, without the manifest. -/
def Progress.evidence (progress : Progress) : List (Created JsString) :=
  createdLedgers output manifest
      (progress.lastLinkedLedgerIndex + 1 - manifest.range.first).toNat
    ++ (createdChunks output manifest progress.linkedChunkCount
    ++ (createdIf progress.ledgersCreated ⟨ledgersDirectory output, true⟩
    ++ (createdIf progress.indexesCreated ⟨indexesDirectory output, true⟩
    ++ (createdIf progress.outputCreated ⟨output, true⟩ ++ []))))

/-- What the progress says was created. -/
def Progress.created (progress : Progress) : List (Created JsString) :=
  createdIf progress.manifestLinked ⟨manifestFile output, false⟩
    ++ progress.evidence output manifest

/-- Every file the manifest names is there. -/
def IsComplete {F : Type} (w : FileTree JsString F) : Prop :=
  (∀ chunk ∈ manifest.chunks, w.IsFile (indexChunkFile output chunk.toIndexRange)) ∧
    ∀ i, manifest.range.first ≤ i → i ≤ manifest.range.last → w.IsFile (ledgerFile output i)

end Created

section Runs

variable {F : Type} {output temporary : List JsString} {manifest : LedgerFixtureBundleManifest}
  {w₀ w w' : FileTree JsString F} {progress : Progress} {created : List (Created JsString)}

/-! ### Where the manifest is not -/

@[simp] theorem createdIf_true (c : Created JsString) : createdIf true c = [c] := rfl

@[simp] theorem createdIf_false (c : Created JsString) : createdIf false c = [] := rfl

theorem eq_of_mem_createdIf {c d : Created JsString} {condition : Bool}
    (h : d ∈ createdIf condition c) : d = c := by
  unfold createdIf at h
  split_ifs at h
  · exact List.mem_singleton.mp h
  · cases h

theorem exists_of_mem_createdLedgers {c : Created JsString} {n : ℕ}
    (h : c ∈ createdLedgers output manifest n) :
    ∃ k < n, c = createdLedger output (manifest.range.first + k) := by
  induction n with
  | zero => cases h
  | succ n ih =>
      rcases List.mem_cons.mp h with rfl | h
      · exact ⟨n, Nat.lt_succ_self n, rfl⟩
      · obtain ⟨k, hk, rfl⟩ := ih h
        exact ⟨k, Nat.lt_succ_of_lt hk, rfl⟩

theorem mem_createdLedgers {k n : ℕ} (hk : k < n) :
    createdLedger output (manifest.range.first + k) ∈ createdLedgers output manifest n := by
  induction n with
  | zero => cases hk
  | succ n ih =>
      by_cases h : k = n
      · rw [h]
        exact List.mem_cons_self
      · exact List.mem_cons_of_mem _ (ih (by omega))

/-- The evidence is not the manifest. -/
theorem manifestFile_notMem_evidence :
    manifestFile output ∉ (progress.evidence output manifest).map Created.path := by
  intro hmem
  obtain ⟨c, hc, hpath⟩ := List.mem_map.mp hmem
  have hlength := congrArg List.length hpath
  unfold manifestFile at hpath hlength
  rw [List.length_cons] at hlength
  simp only [Progress.evidence, List.mem_append, List.not_mem_nil, or_false] at hc
  rcases hc with hc | hc | hc | hc | hc
  · obtain ⟨k, -, rfl⟩ := exists_of_mem_createdLedgers hc
    simp only [createdLedger, ledgerFile, List.length_cons] at hlength
    omega
  · obtain ⟨chunk, -, rfl⟩ := List.mem_map.mp hc
    simp only [createdChunk, indexChunkFile, List.length_cons] at hlength
    omega
  · rw [eq_of_mem_createdIf hc] at hpath
    exact absurd (List.cons.inj hpath).1 (by decide)
  · rw [eq_of_mem_createdIf hc] at hpath
    exact absurd (List.cons.inj hpath).1 (by decide)
  · rw [eq_of_mem_createdIf hc] at hlength
    dsimp only at hlength
    omega

/-! ### What holds at every call -/

/-- What was created begins with the output directory. -/
def IsRooted (output : List JsString) (created : List (Created JsString)) : Prop :=
  created = [] ∨ created.getLast? = some ⟨output, true⟩

theorem IsRooted.tail {c : Created JsString} (h : IsRooted output (c :: created)) :
    IsRooted output created := by
  cases created with
  | nil => exact .inl rfl
  | cons d created =>
      rcases h with h | h
      · cases h
      · exact .inr h

/-- The tree has grown, and the manifest is there only beside all evidence. -/
def IsSafe (output : List JsString) (manifest : LedgerFixtureBundleManifest)
    (w₀ w : FileTree JsString F) : Prop :=
  ∃ created, Grown w₀ w created ∧ IsRooted output created ∧
    (manifestFile output ∉ created.map Created.path ∨ IsComplete output manifest w)

/-- **Nothing that was there is changed, and a manifest is there with all evidence, or was there
before.** -/
theorem IsSafe.holds (h : IsSafe output manifest w₀ w) :
    (∀ path, w₀.node path ≠ none → w.node path = w₀.node path) ∧
      (w.node (manifestFile output) ≠ none → w = w₀ ∨ IsComplete output manifest w) := by
  obtain ⟨created, hgrown, hrooted, hmanifest⟩ := h
  refine ⟨fun path => hgrown.preserves, fun hthere => ?_⟩
  rcases hmanifest with hnot | hcomplete
  · rcases hrooted with rfl | hroot
    · exact .inl hgrown.eq_of_nil
    · -- the manifest would have been in a directory that was not there
      rw [hgrown.same _ hnot] at hthere
      obtain ⟨mode, hmode⟩ := w₀.closed _ _ hthere
      rw [hgrown.fresh _ (List.mem_of_getLast? hroot)] at hmode
      cases hmode
  · exact .inr hcomplete

/-- What the progress says was created is what the tree has grown by. -/
structure Reached (output : List JsString) (manifest : LedgerFixtureBundleManifest)
    (w₀ : FileTree JsString F) (progress : Progress) (w : FileTree JsString F) : Prop where
  grown : Grown w₀ w (progress.created output manifest)
  rooted : IsRooted output (progress.created output manifest)
  count_le : progress.linkedChunkCount ≤ manifest.chunks.length
  complete : progress.manifestLinked = true → IsComplete output manifest w

theorem Reached.safe (h : Reached output manifest w₀ progress w) :
    IsSafe output manifest w₀ w := by
  refine ⟨_, h.grown, h.rooted, ?_⟩
  by_cases hlinked : progress.manifestLinked = true
  · exact .inr (h.complete hlinked)
  · refine .inl ?_
    rw [Progress.created, Bool.eq_false_iff.mpr hlinked, createdIf_false, List.nil_append]
    exact manifestFile_notMem_evidence

/-! ### The body -/

/-- What is known after a part of the body: `R` where it returns, and the progress where it
throws. -/
def After (output : List JsString) (manifest : LedgerFixtureBundleManifest)
    (w₀ : FileTree JsString F) {α : Type} (R : FileTree JsString F → α → Prop)
    (w : FileTree JsString F) : Except (Progress × FixtureError) α → Prop
  | .ok a => R w a
  | .error thrown => Reached output manifest w₀ thrown.1 w

/-- One part of the body after the other. -/
theorem ensures_bind {α β : Type} {p : Publishing α} {f : α → Publishing β}
    {R : FileTree JsString F → α → Prop} {R' : FileTree JsString F → β → Prop}
    (hp : Program.EnsuresOn Performs (fun w _ => IsSafe output manifest w₀ w)
      (After output manifest w₀ R) w p)
    (hf : ∀ w a, R w a → Program.EnsuresOn Performs (fun w _ => IsSafe output manifest w₀ w)
      (After output manifest w₀ R') w (f a)) :
    Program.EnsuresOn Performs (fun w _ => IsSafe output manifest w₀ w)
      (After output manifest w₀ R') w (p >>= f) :=
  Program.EnsuresOn.bind (P := After output manifest w₀ R) hf (fun _ _ he => he) hp

theorem ensures_attempt {call : FileCall JsString} {R : FileTree JsString F → Unit → Prop}
    (h : Reached output manifest w₀ progress w)
    (hok : ∀ w', Performs call w (.ok ()) w' → R w' ()) :
    Program.EnsuresOn Performs (fun w _ => IsSafe output manifest w₀ w)
      (After output manifest w₀ R) w (attempt progress call) := by
  refine Program.EnsuresOn.bind_perform h.safe fun r w' hr => ?_
  cases r with
  | ok u => exact hok w' hr
  | error e =>
      rw [hr.eq_of_error]
      exact h

/-- The progress in the loops. -/
def Progress.linking (manifest : LedgerFixtureBundleManifest) (k n : ℕ) : Progress where
  outputCreated := true
  indexesCreated := true
  ledgersCreated := true
  linkedChunkCount := k
  lastLinkedLedgerIndex := manifest.range.first - 1 + n
  manifestLinked := false

/-- The directories, the latest first. -/
def createdDirectories (output : List JsString) : List (Created JsString) :=
  [⟨ledgersDirectory output, true⟩, ⟨indexesDirectory output, true⟩, ⟨output, true⟩]

theorem ledgerCount_eq (first n : ℕ) : ((first : ℤ) - 1 + n + 1 - first).toNat = n := by
  omega

theorem evidence_linking (k n : ℕ) :
    (Progress.linking manifest k n).evidence output manifest
      = createdLedgers output manifest n
        ++ (createdChunks output manifest k ++ createdDirectories output) := by
  unfold Progress.evidence Progress.linking
  dsimp only
  rw [ledgerCount_eq]
  rfl

theorem created_linking (k n : ℕ) :
    (Progress.linking manifest k n).created output manifest
      = createdLedgers output manifest n
        ++ (createdChunks output manifest k ++ createdDirectories output) := by
  rw [← evidence_linking]
  show createdIf false _ ++ (Progress.linking manifest k n).evidence output manifest = _
  rw [createdIf_false, List.nil_append]

theorem isRooted_linking (k n : ℕ) :
    IsRooted output ((Progress.linking manifest k n).created output manifest) := by
  refine .inr ?_
  rw [created_linking, List.getLast?_append, List.getLast?_append]
  rfl

/-- One more chunk. -/
theorem createdChunks_succ {k : ℕ} {chunk : LedgerFixtureIndexChunk}
    (h : manifest.chunks[k]? = some chunk) :
    createdChunks output manifest (k + 1)
      = createdChunk output chunk :: createdChunks output manifest k := by
  unfold createdChunks
  rw [List.take_add_one, h, Option.toList_some, List.reverse_append, List.reverse_singleton]
  rfl

theorem ensures_linkChunks {k : ℕ} (hk : k ≤ manifest.chunks.length)
    (h : Reached output manifest w₀ (Progress.linking manifest k 0) w) :
    Program.EnsuresOn Performs (fun w _ => IsSafe output manifest w₀ w)
      (After output manifest w₀ fun w p =>
        p = Progress.linking manifest manifest.chunks.length 0 ∧
          Reached output manifest w₀ p w) w
      (linkChunks temporary output (manifest.chunks.drop k) (Progress.linking manifest k 0)) := by
  -- the induction is on the chunks that are left
  obtain ⟨n, hn⟩ : ∃ n, manifest.chunks.length - k = n := ⟨_, rfl⟩
  induction n generalizing k w with
  | zero =>
      obtain rfl : k = manifest.chunks.length := by omega
      rw [List.drop_length]
      exact ⟨rfl, h⟩
  | succ n ih =>
      have hlt : k < manifest.chunks.length := by omega
      rw [List.drop_eq_getElem_cons hlt]
      refine ensures_bind (ensures_attempt (R := fun w' _ =>
        Reached output manifest w₀ (Progress.linking manifest (k + 1) 0) w') h ?_) ?_
      · intro w' hcall
        have hgrown := h.grown.link hcall
        refine ⟨?_, isRooted_linking _ _, hlt, fun hlinked => (by cases hlinked)⟩
        rw [created_linking] at hgrown ⊢
        rw [createdChunks_succ (List.getElem?_eq_getElem hlt)]
        exact hgrown
      · exact fun w' _ hw' => ih (by omega) hw' (by omega)

theorem ensures_linkLedgers {m n k : ℕ} (hk : k ≤ manifest.chunks.length)
    (h : Reached output manifest w₀ (Progress.linking manifest k n) w) :
    Program.EnsuresOn Performs (fun w _ => IsSafe output manifest w₀ w)
      (After output manifest w₀ fun w p =>
        p = Progress.linking manifest k (n + m) ∧ Reached output manifest w₀ p w) w
      (linkLedgers temporary output m (manifest.range.first + n)
        (Progress.linking manifest k n)) := by
  induction m generalizing n w with
  | zero => exact ⟨rfl, h⟩
  | succ m ih =>
      have hnext : { Progress.linking manifest k n with
          lastLinkedLedgerIndex := ((manifest.range.first + n : ℕ) : ℤ) }
            = Progress.linking manifest k (n + 1) := by
        unfold Progress.linking
        rw [Progress.mk.injEq]
        refine ⟨rfl, rfl, rfl, rfl, ?_, rfl⟩
        omega
      unfold linkLedgers
      rw [hnext, Nat.add_assoc, ← Nat.add_assoc n m 1, Nat.add_right_comm n m 1]
      refine ensures_bind (ensures_attempt (R := fun w' _ =>
        Reached output manifest w₀ (Progress.linking manifest k (n + 1)) w') h ?_) ?_
      · intro w' hcall
        have hgrown := h.grown.link hcall
        refine ⟨?_, isRooted_linking _ _, hk, fun hlinked => (by cases hlinked)⟩
        rw [created_linking] at hgrown ⊢
        exact hgrown
      · exact fun w' _ hw' => ih hw'

/-- The progress before the loops. -/
theorem created_directories (o i l : Bool) :
    (Progress.mk o i l 0 (manifest.range.first - 1) false).created output manifest
      = createdIf l ⟨ledgersDirectory output, true⟩
        ++ (createdIf i ⟨indexesDirectory output, true⟩
        ++ (createdIf o ⟨output, true⟩ ++ [])) := by
  have hcount : ((manifest.range.first : ℤ) - 1 + 1 - manifest.range.first).toNat = 0 := by omega
  unfold Progress.created Progress.evidence
  dsimp only
  rw [hcount, createdIf_false, List.nil_append]
  show [] ++ ([] ++ _) = _
  rw [List.nil_append, List.nil_append]

theorem linking_zero : Progress.mk true true true 0 (manifest.range.first - 1) false
    = Progress.linking manifest 0 0 := by
  unfold Progress.linking
  rw [Progress.mk.injEq]
  refine ⟨rfl, rfl, rfl, rfl, ?_, rfl⟩
  omega

theorem ensures_createOutput (w₀ : FileTree JsString F) :
    Program.EnsuresOn Performs (fun w _ => IsSafe output manifest w₀ w)
      (After output manifest w₀ fun w _ => Reached output manifest w₀
        (Progress.mk true false false 0 (manifest.range.first - 1) false) w) w₀
      (createOutput output (Progress.start manifest)) := by
  have hstart : Reached output manifest w₀ (Progress.start manifest) w₀ := by
    have hcreated : (Progress.start manifest).created output manifest = [] :=
      created_directories false false false
    refine ⟨?_, ?_, Nat.zero_le _, fun hlinked => (by cases hlinked)⟩
    · rw [hcreated]
      exact Grown.refl w₀
    · rw [hcreated]
      exact .inl rfl
  refine Program.EnsuresOn.bind_perform hstart.safe fun r w' hr => ?_
  cases r with
  | ok u =>
      have hgrown := (Grown.refl w₀).mkdir hr
      refine ⟨?_, ?_, Nat.zero_le _, fun hlinked => (by cases hlinked)⟩
      · rw [created_directories]
        exact hgrown
      · rw [created_directories]
        exact .inr rfl
  | error e =>
      rw [hr.eq_of_error]
      cases e with
      | alreadyExists => exact hstart
      | other => exact hstart

/-- The progress after the loops, without and with the manifest. -/
def Progress.evidenceLinked (manifest : LedgerFixtureBundleManifest) : Progress :=
  Progress.linking manifest manifest.chunks.length
    (manifest.range.last + 1 - manifest.range.first)

def Progress.allLinked (manifest : LedgerFixtureBundleManifest) : Progress :=
  { Progress.evidenceLinked manifest with manifestLinked := true }

theorem created_allLinked :
    (Progress.allLinked manifest).created output manifest
      = ⟨manifestFile output, false⟩ ::
        (createdLedgers output manifest (manifest.range.last + 1 - manifest.range.first)
          ++ (createdChunks output manifest manifest.chunks.length
            ++ createdDirectories output)) := by
  rw [← evidence_linking]
  show createdIf true _ ++ (Progress.evidenceLinked manifest).evidence output manifest = _
  rw [createdIf_true, List.singleton_append]
  rfl

/-- **The manifest is linked beside all evidence.** -/
theorem reached_allLinked (h : Grown w₀ w ((Progress.allLinked manifest).created output manifest)) :
    Reached output manifest w₀ (Progress.allLinked manifest) w := by
  refine ⟨h, .inr ?_, Nat.le_refl _, fun _ => ⟨fun chunk hchunk => ?_, fun i hfirst hlast => ?_⟩⟩
  · rw [created_allLinked, List.getLast?_cons, List.getLast?_append, List.getLast?_append]
    rfl
  · refine h.present (createdChunk output chunk) ?_
    rw [created_allLinked, createdChunks, List.take_length]
    exact List.mem_cons_of_mem _ (List.mem_append_right _ (List.mem_append_left _
      (List.mem_map_of_mem (List.mem_reverse.mpr hchunk))))
  · obtain ⟨k, rfl⟩ := Nat.exists_eq_add_of_le hfirst
    refine h.present (createdLedger output (manifest.range.first + k)) ?_
    rw [created_allLinked]
    exact List.mem_cons_of_mem _ (List.mem_append_left _ (mem_createdLedgers (by omega)))

/-- The mode of a directory is changed. -/
theorem ensures_chmod {path : List JsString} {mode : ℕ}
    (hpath : ⟨path, true⟩ ∈ createdDirectories output)
    (h : Reached output manifest w₀ (Progress.allLinked manifest) w) :
    Program.EnsuresOn Performs (fun w _ => IsSafe output manifest w₀ w)
      (After output manifest w₀ fun w _ =>
        Reached output manifest w₀ (Progress.allLinked manifest) w) w
      (attempt (Progress.allLinked manifest) (.chmod path mode)) := by
  refine ensures_attempt h fun w' hcall => reached_allLinked (h.grown.chmod ?_ hcall)
  rw [created_allLinked]
  exact List.mem_cons_of_mem _ (List.mem_append_right _ (List.mem_append_right _ hpath))

/-- **The body.** -/
theorem ensures_publishFiles (w₀ : FileTree JsString F) :
    Program.EnsuresOn Performs (fun w _ => IsSafe output manifest w₀ w)
      (After output manifest w₀ fun w _ => IsSafe output manifest w₀ w ∧
        IsComplete output manifest w ∧ w.IsFile (manifestFile output)) w₀
      (publishFiles temporary output manifest) := by
  unfold publishFiles
  dsimp only
  refine ensures_bind (ensures_createOutput w₀) fun w₁ _ h₁ => ?_
  refine ensures_bind (R := fun w _ => Reached output manifest w₀
    (Progress.mk true true false 0 (manifest.range.first - 1) false) w)
    (ensures_attempt h₁ fun w hcall => ?_) fun w₂ _ h₂ => ?_
  · have hgrown := h₁.grown.mkdir hcall
    refine ⟨?_, ?_, Nat.zero_le _, fun hlinked => (by cases hlinked)⟩
    · simp only [created_directories, createdIf_true, createdIf_false, List.nil_append,
        List.singleton_append] at hgrown ⊢
      exact hgrown
    · rw [created_directories]
      exact .inr rfl
  refine ensures_bind (R := fun w _ => Reached output manifest w₀ (Progress.linking manifest 0 0) w)
    (ensures_attempt h₂ fun w hcall => ?_) fun w₃ _ h₃ => ?_
  · have hgrown := h₂.grown.mkdir hcall
    refine ⟨?_, isRooted_linking 0 0, Nat.zero_le _, fun hlinked => (by cases hlinked)⟩
    simp only [created_directories, createdIf_true, createdIf_false, List.nil_append,
      List.singleton_append] at hgrown
    rw [created_linking]
    show Grown w₀ w ([] ++ ([] ++ createdDirectories output))
    rw [List.nil_append, List.nil_append]
    exact hgrown
  have hlinking : { Progress.start manifest with
      outputCreated := true, indexesCreated := true, ledgersCreated := true }
        = Progress.linking manifest 0 0 := linking_zero
  rw [hlinking]
  refine ensures_bind (ensures_linkChunks (Nat.zero_le _) h₃) fun w₄ p₄ h₄ => ?_
  obtain ⟨rfl, h₄⟩ := h₄
  refine ensures_bind (ensures_linkLedgers (Nat.le_refl _) h₄) fun w₅ p₅ h₅ => ?_
  obtain ⟨rfl, h₅⟩ := h₅
  rw [Nat.zero_add] at h₅ ⊢
  refine ensures_bind (R := fun w _ => Reached output manifest w₀ (Progress.allLinked manifest) w)
    (ensures_attempt h₅ fun w hcall => reached_allLinked ?_) fun w₆ _ h₆ => ?_
  · rw [created_allLinked, ← created_linking]
    exact h₅.grown.link hcall
  refine ensures_bind (ensures_chmod (List.mem_cons_of_mem _ List.mem_cons_self) h₆)
    fun w₇ _ h₇ => ?_
  refine ensures_bind (ensures_chmod List.mem_cons_self h₇) fun w₈ _ h₈ => ?_
  refine Program.EnsuresOn.mono (fun w result hresult => ?_) (ensures_chmod
    (List.mem_cons_of_mem _ (List.mem_cons_of_mem _ List.mem_cons_self)) h₈)
  cases result with
  | ok u =>
      have hgrown := hresult.grown
      rw [created_allLinked] at hgrown
      exact ⟨hresult.safe, hresult.complete rfl, hgrown.present _ List.mem_cons_self⟩
  | error thrown => exact hresult

/-! ### The clean-up -/

/-- What is still to be removed: nothing of it is the manifest. -/
structure Unwinding (output : List JsString) (w₀ : FileTree JsString F)
    (created : List (Created JsString)) (w : FileTree JsString F) : Prop where
  grown : Grown w₀ w created
  rooted : IsRooted output created
  manifest : manifestFile output ∉ created.map Created.path

theorem Unwinding.safe (h : Unwinding output w₀ created w) : IsSafe output manifest w₀ w :=
  ⟨created, h.grown, h.rooted, .inl h.manifest⟩

/-- A part of the clean-up throws nothing, and leaves what is behind in the list. -/
def Leaves (output : List JsString) (w₀ : FileTree JsString F) (created : List (Created JsString))
    (w : FileTree JsString F) (result : Except FixtureError Unit) : Prop :=
  result = .ok () ∧ Unwinding output w₀ created w

/-- One part of the clean-up and what comes after it. -/
theorem ensures_then {p : FileProgram FixtureError Unit}
    {f : Unit → FileProgram FixtureError Unit}
    {Q : FileTree JsString F → Except FixtureError Unit → Prop}
    (hp : Program.EnsuresOn Performs (fun w _ => IsSafe output manifest w₀ w)
      (Leaves output w₀ created) w p)
    (hf : ∀ w, Unwinding output w₀ created w →
      Program.EnsuresOn Performs (fun w _ => IsSafe output manifest w₀ w) Q w (f ())) :
    Program.EnsuresOn Performs (fun w _ => IsSafe output manifest w₀ w) Q w (p >>= f) := by
  refine Program.EnsuresOn.bind (P := Leaves output w₀ created) ?_ ?_ hp
  · exact fun w _ hw => hf w hw.2
  · intro w e he
    cases he.1

/-- **What was created last is removed.** -/
theorem ensures_ignoring {c : Created JsString} (hsafe : IsSafe output manifest w₀ w)
    (hgrown : Grown w₀ w (c :: created)) (hrooted : IsRooted output created)
    (hmanifest : manifestFile output ∉ created.map Created.path) :
    Program.EnsuresOn Performs (fun w _ => IsSafe output manifest w₀ w)
      (Leaves output w₀ created) w (ignoring c.removal) :=
  Program.EnsuresOn.bind_perform hsafe fun _ _ hr => ⟨rfl, hgrown.removal hr, hrooted, hmanifest⟩

theorem Unwinding.ensures_ignoring {c : Created JsString}
    (h : Unwinding output w₀ (c :: created) w) :
    Program.EnsuresOn Performs (fun w _ => IsSafe output manifest w₀ w)
      (Leaves output w₀ created) w (ignoring c.removal) :=
  Fixture.ensures_ignoring h.safe h.grown h.rooted.tail fun hmem =>
    h.manifest (List.mem_cons_of_mem _ hmem)

theorem ensures_ignoringIf {condition : Bool} {c : Created JsString}
    (h : Unwinding output w₀ (createdIf condition c ++ created) w) :
    Program.EnsuresOn Performs (fun w _ => IsSafe output manifest w₀ w)
      (Leaves output w₀ created) w (ignoringIf condition c.removal) := by
  cases condition with
  | true => exact Unwinding.ensures_ignoring h
  | false => exact ⟨rfl, h⟩

theorem ensures_unlinkLedgers {n : ℕ}
    (h : Unwinding output w₀ (createdLedgers output manifest n ++ created) w) :
    Program.EnsuresOn Performs (fun w _ => IsSafe output manifest w₀ w)
      (Leaves output w₀ created) w (unlinkLedgers output manifest.range.first n) := by
  induction n generalizing w with
  | zero => exact ⟨rfl, h⟩
  | succ n ih =>
      exact ensures_then (Unwinding.ensures_ignoring
        (c := createdLedger output (manifest.range.first + n)) h) fun w' hw' => ih hw'

theorem ensures_unlinkChunks {n : ℕ} (hn : n ≤ manifest.chunks.length)
    (h : Unwinding output w₀ (createdChunks output manifest n ++ created) w) :
    Program.EnsuresOn Performs (fun w _ => IsSafe output manifest w₀ w)
      (Leaves output w₀ created) w (unlinkChunks output manifest.chunks n) := by
  induction n generalizing w with
  | zero => exact ⟨rfl, h⟩
  | succ n ih =>
      have hchunk := List.getElem?_eq_getElem (show n < manifest.chunks.length from hn)
      rw [createdChunks_succ hchunk] at h
      unfold unlinkChunks
      rw [hchunk]
      exact ensures_then
        (Unwinding.ensures_ignoring (c := createdChunk output manifest.chunks[n]) h)
        fun w' hw' => ih (by omega) hw'

/-- **The clean-up.**  It leaves nothing of what the progress says was created. -/
theorem ensures_rollback (h : Reached output manifest w₀ progress w) :
    Program.EnsuresOn Performs (fun w _ => IsSafe output manifest w₀ w) (Leaves output w₀ []) w
      (rollback output manifest progress) := by
  have hmanifest : Program.EnsuresOn Performs (fun w _ => IsSafe output manifest w₀ w)
      (Leaves output w₀ (progress.evidence output manifest)) w
      (ignoringIf progress.manifestLinked (.unlink (manifestFile output))) := by
    have hgrown := h.grown
    have hrooted := h.rooted
    unfold Progress.created at hgrown hrooted
    cases hlinked : progress.manifestLinked with
    | true =>
        rw [hlinked, createdIf_true, List.singleton_append] at hgrown hrooted
        exact ensures_ignoring (c := ⟨manifestFile output, false⟩) h.safe hgrown
          (IsRooted.tail (c := ⟨manifestFile output, false⟩) hrooted) manifestFile_notMem_evidence
    | false =>
        rw [hlinked, createdIf_false, List.nil_append] at hgrown hrooted
        exact ⟨rfl, hgrown, hrooted, manifestFile_notMem_evidence⟩
  refine ensures_then hmanifest fun w₁ h₁ => ?_
  refine ensures_then (ensures_unlinkLedgers h₁) fun w₂ h₂ => ?_
  refine ensures_then (ensures_unlinkChunks h.count_le h₂) fun w₃ h₃ => ?_
  refine ensures_then (ensures_ignoringIf h₃) fun w₄ h₄ => ?_
  refine ensures_then (ensures_ignoringIf h₄) fun w₅ h₅ => ?_
  exact ensures_ignoringIf h₅

/-! ### Every run -/

theorem neverStops_attempt (call : FileCall JsString) : (attempt progress call).NeverStops := by
  intro answer
  cases answer with
  | ok u => exact trivial
  | error e => exact trivial

theorem neverStops_createOutput : (createOutput output progress).NeverStops := by
  intro answer
  cases answer with
  | ok u => exact trivial
  | error e =>
      cases e with
      | alreadyExists => exact trivial
      | other => exact trivial

theorem neverStops_linkChunks (chunks : List LedgerFixtureIndexChunk) (progress : Progress) :
    (linkChunks temporary output chunks progress).NeverStops := by
  induction chunks generalizing progress with
  | nil => exact trivial
  | cons chunk chunks ih => exact Program.NeverStops.bind (fun _ => ih _) (neverStops_attempt _)

theorem neverStops_linkLedgers (n ledgerIndex : ℕ) (progress : Progress) :
    (linkLedgers temporary output n ledgerIndex progress).NeverStops := by
  induction n generalizing ledgerIndex progress with
  | zero => exact trivial
  | succ n ih => exact Program.NeverStops.bind (fun _ => ih _ _) (neverStops_attempt _)

theorem neverStops_publishFiles : (publishFiles temporary output manifest).NeverStops := by
  unfold publishFiles
  refine Program.NeverStops.bind (fun _ => ?_) neverStops_createOutput
  refine Program.NeverStops.bind (fun _ => ?_) (neverStops_attempt _)
  refine Program.NeverStops.bind (fun _ => ?_) (neverStops_attempt _)
  refine Program.NeverStops.bind (fun _ => ?_) (neverStops_linkChunks _ _)
  refine Program.NeverStops.bind (fun _ => ?_) (neverStops_linkLedgers _ _ _)
  refine Program.NeverStops.bind (fun _ => ?_) (neverStops_attempt _)
  refine Program.NeverStops.bind (fun _ => ?_) (neverStops_attempt _)
  refine Program.NeverStops.bind (fun _ => ?_) (neverStops_attempt _)
  exact neverStops_attempt _

theorem neverStops_ignoringIf (condition : Bool) (call : FileCall JsString) :
    (ignoringIf condition call).NeverStops := by
  cases condition with
  | true => exact fun _ => trivial
  | false => exact trivial

theorem neverStops_unlinkLedgers (first n : ℕ) : (unlinkLedgers output first n).NeverStops := by
  induction n with
  | zero => exact trivial
  | succ n ih => exact fun _ => ih

theorem neverStops_unlinkChunks (chunks : List LedgerFixtureIndexChunk) (n : ℕ) :
    (unlinkChunks output chunks n).NeverStops := by
  induction n with
  | zero => exact trivial
  | succ n ih =>
      unfold unlinkChunks
      cases chunks[n]? with
      | none => exact trivial
      | some chunk => exact fun _ => ih

theorem neverStops_rollback : (rollback output manifest progress).NeverStops := by
  unfold rollback
  refine Program.NeverStops.bind (fun _ => ?_) (neverStops_ignoringIf _ _)
  refine Program.NeverStops.bind (fun _ => ?_) (neverStops_unlinkLedgers _ _)
  refine Program.NeverStops.bind (fun _ => ?_) (neverStops_unlinkChunks _ _)
  refine Program.NeverStops.bind (fun _ => ?_) (neverStops_ignoringIf _ _)
  refine Program.NeverStops.bind (fun _ => ?_) (neverStops_ignoringIf _ _)
  exact neverStops_ignoringIf _ _

/-- A publication ends, in a result or in an error. -/
theorem neverStops_publishBundleNoClobber :
    (publishBundleNoClobber temporary output manifest).NeverStops := by
  refine Program.NeverStops.handle (fun thrown => ?_) neverStops_publishFiles
  refine Program.NeverStops.bind (fun _ => ?_) neverStops_rollback
  cases thrown.2 with
  | bundle code message => exact trivial
  | other => exact trivial

/-- **Publication is all or nothing.**  In every state of every run, with whatever calls fail, every
path that was there before is there as it was, and the manifest is in the output directory only
where nothing has changed yet or every file it names is there.  When the program throws, the tree is
what it was before; when it returns, the bundle is complete. -/
theorem publishBundleNoClobber_allOrNothing {p : FileProgram FixtureError Unit}
    {tr : List (Program.Event FileCall.Answer)}
    (hrun : Run (Program.StepOn Performs) (w₀, publishBundleNoClobber temporary output manifest) tr
      (w, p)) :
    (∀ path, w₀.node path ≠ none → w.node path = w₀.node path) ∧
      (w.node (manifestFile output) ≠ none → w = w₀ ∨ IsComplete output manifest w) ∧
      (∀ e, p = .done (.error e) → w = w₀) ∧
      (p = .done (.ok ()) → IsComplete output manifest w ∧ w.IsFile (manifestFile output)) := by
  have hensures : Program.EnsuresOn Performs (fun w _ => IsSafe output manifest w₀ w)
      (fun w result => IsSafe output manifest w₀ w ∧ (∀ e, result = .error e → w = w₀) ∧
        (result = .ok () → IsComplete output manifest w ∧ w.IsFile (manifestFile output))) w₀
      (publishBundleNoClobber temporary output manifest) := by
    refine Program.EnsuresOn.handle (fun w u hw => ?_) (fun w thrown hw => ?_)
      (ensures_publishFiles w₀)
    · exact ⟨hw.1, fun e he => (by cases he), fun _ => hw.2⟩
    · refine ensures_then (ensures_rollback hw) fun w' hw' => ?_
      obtain rfl : w' = w₀ := hw'.grown.eq_of_nil
      cases thrown.2 with
      | bundle code message =>
          exact ⟨hw'.safe, fun _ _ => rfl, fun he => (by cases he)⟩
      | other => exact ⟨hw'.safe, fun _ _ => rfl, fun he => (by cases he)⟩
  have hreached := hensures.of_run hrun
  cases p with
  | done result =>
      obtain ⟨hsafe, herror, hok⟩ := hreached
      obtain ⟨hpreserves, hmanifest⟩ := hsafe.holds
      refine ⟨hpreserves, hmanifest, fun e he => ?_, fun he => ?_⟩
      · cases he
        exact herror e rfl
      · cases he
        exact hok rfl
  | stopped => exact absurd rfl (neverStops_publishBundleNoClobber.ne_stopped hrun)
  | call c next =>
      obtain ⟨hpreserves, hmanifest⟩ := hreached.1.holds
      exact ⟨hpreserves, hmanifest, fun e he => (by cases he), fun he => (by cases he)⟩

end Runs

/-! ## A sample -/

/-- The manifest of the sample chunk. -/
def sampleManifest : LedgerFixtureBundleManifest where
  capturedAt := js "2026-01-01T00:00:00.000Z"
  profile := sampleFixtureProfile
  profileFileSha256 := List.replicate 64 0x30
  primaryOperator := js "first"
  secondaryOperator := js "second"
  sourceTips := ⟨6, 6, 6⟩
  range := ⟨5, 6⟩
  chunks := [sampleChunk]

/-- A root, and below it a directory where there is a mode for it. -/
def sampleTree (mode : Option ℕ) : FileTree JsString ℕ where
  node path :=
    if path = [] then some (.directory 0o755)
    else if path = [js "bundle"] then mode.map .directory else none
  closed := by
    intro name path h
    by_cases hpath : name :: path = [js "bundle"]
    · rw [(List.cons.inj hpath).2]
      exact ⟨_, rfl⟩
    · rw [if_neg (List.cons_ne_nil _ _), if_neg hpath] at h
      exact absurd rfl h

theorem updates_sampleTree (mode mode' : Option ℕ) :
    (sampleTree mode).Updates [js "bundle"] (mode'.map .directory) (sampleTree mode') := by
  funext path
  by_cases hpath : path = [js "bundle"]
  · rw [hpath, Function.update_self]
    rfl
  · rw [Function.update_of_ne hpath]
    show ite _ _ _ = ite _ _ _
    rw [if_neg hpath, if_neg hpath]

/-- The first directory cannot be created in the new output directory, and the output directory is
removed. -/
theorem publishBundleNoClobber_allOrNothing_sample : ∃ tr w e,
    Run (Program.StepOn Performs) (sampleTree none,
      publishBundleNoClobber [] [js "bundle"] sampleManifest) tr (w, .done (.error e)) ∧
        w = sampleTree none := by
  have hcreate : Performs (.mkdir [js "bundle"] 0o700) (sampleTree none) (.ok ())
      (sampleTree (some 0o700)) := .mkdir rfl (updates_sampleTree none (some 0o700))
  have hfail : Performs (.mkdir [js "indexes", js "bundle"] 0o700) (sampleTree (some 0o700))
      (.error .other) (sampleTree (some 0o700)) := .mkdirFailed .other
  have hremove : Performs (.rmdir [js "bundle"]) (sampleTree (some 0o700)) (.ok ())
      (sampleTree none) := by
    refine .rmdir ⟨⟨0o700, rfl⟩, fun name => ?_⟩ (updates_sampleTree (some 0o700) none)
    show ite _ _ _ = _
    exact if_neg (by simp)
  have hrun : Run (Program.StepOn Performs) (sampleTree none,
      publishBundleNoClobber [] [js "bundle"] sampleManifest) _ (sampleTree none, .done (.error
        (.bundle .sourceUnavailable (js "fixture bundle publication failed")))) :=
    ((Run.nil _).snoc (.call hcreate)).snoc (.call hfail) |>.snoc (.call hremove)
  exact ⟨_, _, _, hrun, (publishBundleNoClobber_allOrNothing hrun).2.2.1 _ rfl⟩

end Fixture
end Indexer
end Xcs
