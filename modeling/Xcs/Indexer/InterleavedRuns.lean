import Xcs.Indexer.Uninterrupted
import Xcs.Run.Rely

/-!
# Any number of indexers on one projection

Indexers of one profile run at the same time on the same tables, start, fail and start again, in
batches of any size, and load the schema catalog in whatever order of members the tables give it.
Their source answers a ledger of the chain, or it fails.

* `AtLedger` says that the tables hold what indexing the first ledgers of the chain without
  interruption leaves, and `Advances` that they have moved on to more ledgers.
* `Knows` is what a worker knows of the tables between two ledgers: the others may have moved them
  on.
* `calls_atLedger` says that the calls a worker makes keep the tables so, and `start_among` that it
  makes no others.
* `projection_uninterrupted`: after every run of every number of workers, the tables hold what
  indexing without interruption leaves.
-/

namespace Xcs
namespace Indexer

open Js Json Xcs.Core Db Program

/-! ## Rules for a worker among others

`Among performs rely G w p Q`: in the world `w`, whatever the worker has in its fields and whatever
the others do, `p` makes only calls that `G` allows, and what it returns is as `Q` says. -/

/-- What a computation of a worker does among others. -/
def Among {σ : Type} (performs : (c : WorkerCall) → σ → c.Answer → σ → Prop) (rely : σ → σ → Prop)
    (G : σ → WorkerCall → Prop) {α : Type} (w : σ) (p : WorkerM α) (Q : σ → α → Prop) : Prop :=
  ∀ s, EnsuresUnder performs rely G (fun w' result => ∀ a s', result = .ok (a, s') → Q w' a) w (p s)

section Rules

variable {σ α β : Type} {performs : (c : WorkerCall) → σ → c.Answer → σ → Prop}
  {rely : σ → σ → Prop} {G : σ → WorkerCall → Prop} {w : σ} {Q : σ → α → Prop}

theorem Among.pure {a : α} (h : Q w a) : Among performs rely G w (pure a) Q := by
  rintro s _ _ ⟨⟩
  exact h

theorem Among.mono {p : WorkerM α} {Q' : σ → α → Prop} (h : Among performs rely G w p Q)
    (sub : ∀ w' a, Q w' a → Q' w' a) : Among performs rely G w p Q' :=
  fun s => (h s).mono fun w' _ hresult a s' heq => sub w' a (hresult a s' heq)

theorem Among.bind {p : WorkerM β} {f : β → WorkerM α} {R : σ → β → Prop}
    (hp : Among performs rely G w p R) (hf : ∀ w' b, R w' b → Among performs rely G w' (f b) Q) :
    Among performs rely G w (p >>= f) Q := by
  intro s
  refine EnsuresUnder.bind (P := fun w' result => ∀ b s', result = .ok (b, s') → R w' b) ?_ ?_
    (hp s)
  · rintro w' ⟨b, s'⟩ hb
    exact hf w' b (hb b s' rfl) s'
  · rintro w' e - _ _ ⟨⟩

theorem Among.ask {c : WorkerCall} {Q : σ → c.Value → Prop}
    (h : ∀ w₁, rely w w₁ → G w₁ c ∧ ∀ a w₂, performs c w₁ (.ok a) w₂ → Q w₂ a) :
    Among performs rely G w (ask c) Q := by
  intro s w₁ hw₁
  refine ⟨(h w₁ hw₁).1, fun answer w₂ hperforms => ?_⟩
  cases answer with
  | ok a =>
      rintro _ _ ⟨⟩
      exact (h w₁ hw₁).2 a w₂ hperforms
  | error e => rintro _ _ ⟨⟩

theorem Among.check {x : Except Thrown α} (h : ∀ a, x = .ok a → Q w a) :
    Among performs rely G w (check x) Q := by
  intro s
  cases x with
  | ok a =>
      rintro _ _ ⟨⟩
      exact h a rfl
  | error e => rintro _ _ ⟨⟩

theorem Among.get {Q : σ → WorkerState → Prop} (h : ∀ s, Q w s) :
    Among performs rely G w (MonadState.get : WorkerM WorkerState) Q := by
  rintro s _ _ ⟨⟩
  exact h s

theorem Among.modify {f : WorkerState → WorkerState} {Q : σ → Unit → Prop} (h : Q w ()) :
    Among performs rely G w (modify f : WorkerM Unit) Q := by
  rintro s _ _ ⟨⟩
  exact h

theorem Among.stopWorker : Among performs rely G w (stopWorker : WorkerM α) Q :=
  fun _ => trivial

theorem Among.settled {p : WorkerM α} {Q : σ → Except Thrown α → Prop} {R : σ → α → Prop}
    (hp : Among performs rely G w p R) (hQ : ∀ w' result, Q w' result) :
    Among performs rely G w (settled p) Q := by
  intro s
  refine EnsuresUnder.catchError (P := fun _ _ => True) ?_ ?_
    (EnsuresUnder.bind (P := fun _ _ => True) ?_ ?_ ((hp s).mono fun _ _ _ => trivial))
  · rintro w' ⟨result, s'⟩ - _ _ ⟨⟩
    exact hQ w' result
  · rintro w' ⟨e, s'⟩ - _ _ ⟨⟩
    exact hQ w' _
  · exact fun _ _ _ => trivial
  · exact fun _ _ _ => trivial

end Rules

/-! ## The tables -/

section Tables

variable (P : Platform) (profile : NetworkProfile) (chain : ℕ → ValidatedLedger)

/-- The tables hold what indexing so many ledgers without interruption leaves. -/
structure AtLedger (n : ℕ) (rows : ProjectionRows) : Prop where
  indexed : ∃ s, indexedUpTo P profile chain n = .ok s ∧
    { rows with networkProfile := some (profileRow profile) } = s.rows
  networkProfile : rows.networkProfile = some (profileRow profile)
    ∨ rows.networkProfile = none ∧ n = 0

/-- The tables are at some ledger. -/
def AtSomeLedger (w : FencingState) : Prop :=
  ∃ n, AtLedger P profile chain n w.rows.toProjectionRows

/-- The tables move on. -/
def Advances (w w' : FencingState) : Prop :=
  ∀ n, AtLedger P profile chain n w.rows.toProjectionRows →
    ∃ n', n ≤ n' ∧ AtLedger P profile chain n' w'.rows.toProjectionRows

/-- A projection of the ledger after so many comes out as it does without interruption. -/
def Fits (n : ℕ) (projection : LedgerProjection) : Prop :=
  ∃ s expected, indexedUpTo P profile chain n = .ok s ∧
    projectLedger P (chain (profile.activationLedgerIndex + n)) profile s.catalog
      = .ok expected ∧
    projection.ledger = expected.ledger ∧
    List.Forall₂ SameRegistration projection.schemaRegistrations expected.schemaRegistrations ∧
    projection.credentialMutations = expected.credentialMutations

/-- What a worker may call: it persists no other projection of the next ledger. -/
def MayCall (w : FencingState) : WorkerCall → Prop
  | .persistLedger configured projection _ _ => configured = profile ∧
      ∀ n, AtLedger P profile chain n w.rows.toProjectionRows →
        projection.ledger.ledgerIndex = profile.activationLedgerIndex + n →
        Fits P profile chain n projection
  | .initializeProfile configured => configured = profile
  | _ => True

/-- The source answers a ledger of the chain, or it fails. -/
def FromChain : (c : WorkerCall) → c.Answer → Prop
  | .getLedger ledgerIndex, answer => ∀ ledger, answer = .ok ledger → ledger = chain ledgerIndex
  | _, _ => True

/-- What a call does, and what it may be answered: the tables are read in any order of members. -/
def Answered (c : WorkerCall) (w : FencingState) (answer : c.Answer) (w' : FencingState) : Prop :=
  (∃ J, c.Does P J w answer w') ∧ FromChain chain c answer

end Tables

section AtLedger

variable {P : Platform} {profile : NetworkProfile} {chain : ℕ → ValidatedLedger}

/-- The tables with the profile in them. -/
theorem AtLedger.ensured {n : ℕ} {rows before : ProjectionRows}
    (h : AtLedger P profile chain n rows)
    (hensure : ensureNetworkProfile profile rows = .ok before) :
    AtLedger P profile chain n before ∧
      ∃ s, indexedUpTo P profile chain n = .ok s ∧ before = s.rows := by
  obtain ⟨s, hs, hrows⟩ := h.indexed
  have hbefore : before = { rows with networkProfile := some (profileRow profile) } := by
    rcases ensureNetworkProfile_eq_ok.mp hensure with ⟨hstored, rfl⟩ | ⟨-, -, rfl⟩
    · rw [← hstored]
    · rfl
  refine ⟨⟨⟨s, hs, ?_⟩, Or.inl ?_⟩, s, hs, hbefore.trans hrows⟩
  · rw [hbefore]
    exact hrows
  · rw [hbefore]

/-- The checkpoint of the tables. -/
theorem AtLedger.checkpoint (hchain : IsIndexable P profile chain) {n : ℕ} {rows : ProjectionRows}
    (h : AtLedger P profile chain n rows) :
    getLastCheckpoint rows = checkpointAt profile chain n := by
  obtain ⟨s, hs, hrows⟩ := h.indexed
  rw [← (indexedUpTo_ok hchain hs).checkpoint, ← hrows]
  rfl

theorem Advances.refl (w : FencingState) : Advances P profile chain w w :=
  fun n h => ⟨n, le_rfl, h⟩

instance : IsTrans FencingState (Advances P profile chain) where
  trans := by
    intro a b c hab hbc n hn
    obtain ⟨n', hle, hn'⟩ := hab n hn
    obtain ⟨n'', hle', hn''⟩ := hbc n' hn'
    exact ⟨n'', hle.trans hle', hn''⟩

theorem Advances.of_eq {w w' : FencingState} (h : w' = w) : Advances P profile chain w w' := by
  rw [h]
  exact .refl w

/-- **Writing a projection that fits moves the tables on by its ledger.** -/
theorem AtLedger.persists (hchain : IsIndexable P profile chain) {n : ℕ}
    {rows before after : ProjectionRows} {projection : LedgerProjection} {result : PersistResult}
    (h : AtLedger P profile chain n rows)
    (hfits : projection.ledger.ledgerIndex = profile.activationLedgerIndex + n →
      Fits P profile chain n projection)
    (hensure : ensureNetworkProfile profile rows = .ok before)
    (hpersists : Persists P profile projection before result after) :
    AtLedger P profile chain n after ∧
        (∃ checkpoint, sameIndex projection.ledger before = some checkpoint) ∨
      AtLedger P profile chain (n + 1) after ∧
        projection.ledger.ledgerIndex = profile.activationLedgerIndex + n := by
  obtain ⟨hbefore, s, hs, rfl⟩ := h.ensured hensure
  cases hpersists with
  | again hfound => exact Or.inl ⟨hbefore, _, hfound⟩
  | next fresh written =>
      have hindexed := indexedUpTo_ok hchain hs
      obtain ⟨hcontinues, hprofile, -⟩ := persistProjection_ok written
      rw [hindexed.checkpoint] at hcontinues
      have hindex := ledgerIndex_of_continues hindexed.ledgerIndex hcontinues
      obtain ⟨s', expected, hs', hexpected, hledger, hregistrations, hmutations⟩ := hfits hindex
      obtain rfl : s = s' := Except.ok.inj (hs.symm.trans hs')
      rw [persistProjection_agrees hledger hregistrations hmutations] at written
      refine Or.inr ⟨⟨⟨⟨after, _, _⟩, indexedUpTo_succ.mpr
        ⟨s, expected, hs, hexpected, written, rfl, rfl⟩, ?_⟩, Or.inl ?_⟩, hindex⟩
      · rw [← hindexed.networkProfile, ← hprofile]
      · rw [hprofile, hindexed.networkProfile]

/-- A transaction moves the tables on, where it does so when it is committed. -/
theorem Transacts.advances {α : Type}
    {transaction : PersistClock → ProfileRows → Except Thrown (α × ProfileRows)}
    {w w' : FencingState} {answer : Except Thrown α} (h : Transacts transaction w answer w')
    (committed : ∀ clock a rows, transaction clock w.rows = .ok (a, rows) →
      ∀ n, AtLedger P profile chain n w.rows.toProjectionRows →
        ∃ n', n ≤ n' ∧ AtLedger P profile chain n' rows.toProjectionRows) :
    Advances P profile chain w w' := by
  intro n hn
  exact h.rule (Q := fun rows => ∃ n', n ≤ n' ∧
      AtLedger P profile chain n' rows.toProjectionRows)
    ⟨n, le_rfl, hn⟩ fun clock a rows hrows => committed clock a rows hrows n hn

/-- **The calls of a worker move the tables on, or leave them.** -/
theorem calls_atLedger (hchain : IsIndexable P profile chain) {c : WorkerCall} {w w' : FencingState}
    {answer : c.Answer} (hw : AtSomeLedger P profile chain w) (hmay : MayCall P profile chain w c)
    (h : Answered P chain c w answer w') :
    AtSomeLedger P profile chain w' ∧ Advances P profile chain w w' := by
  suffices hadvances : Advances P profile chain w w' by
    obtain ⟨n, hn⟩ := hw
    obtain ⟨n', -, hn'⟩ := hadvances n hn
    exact ⟨⟨n', hn'⟩, hadvances⟩
  obtain ⟨⟨J, hdoes⟩, -⟩ := h
  cases c with
  | initializeProfile configured =>
      obtain rfl : configured = profile := hmay
      obtain ⟨scope, others, htransacts⟩ := hdoes
      refine htransacts.advances fun clock a rows hrows n hn => ?_
      simp only [Indexer.initializeProfile, bind_eq_ok, pure_eq_ok, Prod.mk.injEq] at hrows
      obtain ⟨_, ⟨-, -, after, hensure, rfl⟩, -, rfl⟩ := hrows
      exact ⟨n, le_rfl, (hn.ensured hensure).1⟩
  | acquireLease input =>
      refine Transacts.advances hdoes fun clock a rows hrows n hn => ?_
      obtain ⟨-, -, -, -, rfl⟩ := acquireIndexerLease_ok hrows
      exact ⟨n, le_rfl, hn⟩
  | renewLease token leaseDurationMs =>
      refine Transacts.advances hdoes fun clock a rows hrows n hn => ?_
      obtain ⟨row, row', -, -, -, -, rfl⟩ := renewIndexerLease_ok hrows
      exact ⟨n, le_rfl, hn⟩
  | updateIndexerStatus token status =>
      refine Transacts.advances hdoes fun clock a rows hrows n hn => ?_
      obtain ⟨row, value, -, -, -, -, -, rfl⟩ := updateIndexerStatus_ok hrows
      exact ⟨n, le_rfl, hn⟩
  | releaseLease token =>
      refine Transacts.advances hdoes fun clock a rows hrows n hn => ?_
      obtain ⟨row, -, -, -, -, rfl⟩ := releaseIndexerLease_ok hrows
      exact ⟨n, le_rfl, hn⟩
  | haltIndexer token status errorCode =>
      refine Transacts.advances hdoes fun clock a rows hrows n hn => ?_
      obtain ⟨row, value, incident, -, -, -, -, -, rfl⟩ := haltIndexer_ok hrows
      exact ⟨n, le_rfl, hn⟩
  | persistLedger configured projection token status =>
      obtain ⟨rfl, hfits⟩ := hmay
      refine Transacts.advances hdoes fun clock a rows hrows n hn => ?_
      obtain ⟨-, -, before, after, row, hensure, hpersists, hupdate⟩ :=
        persistLedger_eq_ok.mp (show persistLedger P configured projection token status clock w.rows
          = .ok (a, rows) from hrows)
      obtain ⟨_, _, -, -, -, -, -, rfl⟩ := updateIndexerStatus_ok hupdate
      rcases hn.persists hchain (hfits n hn) hensure hpersists with ⟨hafter, -⟩ | ⟨hafter, -⟩
      · exact ⟨n, le_rfl, hafter⟩
      · exact ⟨n + 1, Nat.le_succ n, hafter⟩
  | getLastCheckpoint => exact .of_eq hdoes.1
  | getSchemaCatalog => exact .of_eq hdoes.1
  | aborted => exact .of_eq hdoes.1
  | wait milliseconds => exact .of_eq hdoes.1
  | completed => exact .of_eq hdoes.1
  | connect => exact .of_eq hdoes
  | disconnect => exact .of_eq hdoes
  | preflight profile => exact .of_eq hdoes
  | getValidatedLedgerTips => exact .of_eq hdoes
  | getLedger ledgerIndex => exact .of_eq hdoes
  | ledgerProcessed => exact .of_eq hdoes
  | caughtUp ledgerIndex => exact .of_eq hdoes
  | failed error => exact .of_eq hdoes

/-- The checkpoints count the ledgers. -/
theorem AtLedger.length_ledgerCheckpoints (hchain : IsIndexable P profile chain) {n : ℕ}
    {rows : ProjectionRows} (h : AtLedger P profile chain n rows) :
    rows.ledgerCheckpoints.length = n := by
  obtain ⟨s, hs, hrows⟩ := h.indexed
  have hcheckpoints := (indexedUpTo_ok hchain hs).checkpoints
  rw [← hrows] at hcheckpoints
  rw [show rows.ledgerCheckpoints = _ from hcheckpoints, List.length_map, List.length_range]

/-- The tables are at no two ledgers. -/
theorem AtLedger.unique (hchain : IsIndexable P profile chain) {n n' : ℕ} {rows : ProjectionRows}
    (h : AtLedger P profile chain n rows) (h' : AtLedger P profile chain n' rows) : n = n' :=
  (h.length_ledgerCheckpoints hchain).symm.trans (h'.length_ledgerCheckpoints hchain)

/-- Only a ledger that is indexed has a row. -/
theorem AtLedger.lt_of_sameIndex (hchain : IsIndexable P profile chain) {n m : ℕ}
    {rows : ProjectionRows} (h : AtLedger P profile chain n rows) {ledger : ValidatedLedger}
    (hindex : ledger.ledgerIndex = profile.activationLedgerIndex + m)
    (hfound : (sameIndex ledger rows).isSome = true) : m < n := by
  obtain ⟨s, hs, hrows⟩ := h.indexed
  have hindexed := indexedUpTo_ok hchain hs
  have hcheckpoints := hindexed.checkpoints
  rw [← hrows] at hcheckpoints
  obtain ⟨row, hrow⟩ := Option.isSome_iff_exists.mp hfound
  have hmem := List.mem_of_find?_eq_some hrow
  have hsame := List.find?_some hrow
  rw [show rows.ledgerCheckpoints = _ from hcheckpoints] at hmem
  obtain ⟨i, hi, rfl⟩ := List.mem_map.mp hmem
  rw [List.mem_range] at hi
  have hrowIndex : (chain (profile.activationLedgerIndex + i)).ledgerIndex = ledger.ledgerIndex :=
    beq_iff_eq.mp hsame
  rw [hindexed.ledgerIndex i hi, hindex] at hrowIndex
  omega

end AtLedger

/-! ## What a worker knows -/

section Knows

variable (P : Platform) (profile : NetworkProfile) (chain : ℕ → ValidatedLedger)

/-- The checkpoint was the newest one, and the tables have moved on since then. -/
structure Past (m : ℕ) (previous : Option Checkpoint) (w : FencingState) : Prop where
  previous : previous = checkpointAt profile chain m
  atLedger : ∃ n, m ≤ n ∧ AtLedger P profile chain n w.rows.toProjectionRows

/-- A worker has the catalog of so many ledgers, or of more that others have indexed. -/
structure Knows (m : ℕ) (previous : Option Checkpoint) (catalog : SchemaLookup)
    (w : FencingState) : Prop where
  previous : previous = checkpointAt profile chain m
  atLedger : ∃ n t, m ≤ n ∧ AtLedger P profile chain n w.rows.toProjectionRows ∧
    indexedUpTo P profile chain n = .ok t ∧ Within catalog t.catalog
  includes : ∀ s, indexedUpTo P profile chain m = .ok s → Within s.catalog catalog

/-- What the others do not disturb. -/
structure Steady (K : FencingState → Prop) : Prop where
  atSomeLedger : ∀ w, K w → AtSomeLedger P profile chain w
  advances : ∀ w w', K w → Advances P profile chain w w' → K w'

end Knows

section Steady

variable {P : Platform} {profile : NetworkProfile} {chain : ℕ → ValidatedLedger}
  {w w' : FencingState} {m : ℕ} {previous : Option Checkpoint} {catalog : SchemaLookup}

theorem steady_atSomeLedger : Steady P profile chain (AtSomeLedger P profile chain) where
  atSomeLedger := fun _ h => h
  advances := by
    rintro w w' ⟨n, hn⟩ hadvances
    obtain ⟨n', -, hn'⟩ := hadvances n hn
    exact ⟨n', hn'⟩

theorem steady_past : Steady P profile chain (Past P profile chain m previous) where
  atSomeLedger := by
    rintro w ⟨-, n, -, hn⟩
    exact ⟨n, hn⟩
  advances := by
    rintro w w' ⟨hprevious, n, hle, hn⟩ hadvances
    obtain ⟨n', hle', hn'⟩ := hadvances n hn
    exact ⟨hprevious, n', hle.trans hle', hn'⟩

/-- **What a worker knows stays true when the others move the tables on.** -/
theorem steady_knows (hchain : IsIndexable P profile chain) :
    Steady P profile chain (Knows P profile chain m previous catalog) where
  atSomeLedger := by
    rintro w ⟨-, ⟨n, t, -, hn, -⟩, -⟩
    exact ⟨n, hn⟩
  advances := by
    rintro w w' ⟨hprevious, ⟨n, t, hle, hn, ht, hwithin⟩, hincludes⟩ hadvances
    obtain ⟨n', hle', hn'⟩ := hadvances n hn
    obtain ⟨t', ht', -⟩ := hn'.indexed
    obtain ⟨s, hs, hextends⟩ := extends_of_le hchain ht' hle'
    obtain rfl : t = s := Except.ok.inj (ht.symm.trans hs)
    exact ⟨hprevious, ⟨n', t', hle.trans hle', hn', ht', hwithin.includes hextends.includes⟩,
      hincludes⟩

/-- The next ledger of a worker is the one after those it knows of. -/
theorem nextLedgerIndex_eq (hchain : IsIndexable P profile chain) {worker : IndexerWorker}
    (hworker : worker.profile = profile) (h : Knows P profile chain m previous catalog w) :
    nextLedgerIndex worker previous = profile.activationLedgerIndex + m := by
  obtain ⟨rfl, ⟨n, t, hle, -, ht, -⟩, -⟩ := h
  cases m with
  | zero => exact congrArg NetworkProfile.activationLedgerIndex hworker
  | succ m =>
      have hindex := (indexedUpTo_ok hchain ht).ledgerIndex m hle
      show (chain (profile.activationLedgerIndex + m)).ledgerIndex + 1 = _
      rw [hindex, Nat.add_assoc]

/-- The catalog that is loaded is the one of the tables. -/
theorem AtLedger.loads (hchain : IsIndexable P profile chain) {n : ℕ} {rows : ProjectionRows}
    (h : AtLedger P profile chain n rows) (J : JsonbReader) :
    ∃ t, indexedUpTo P profile chain n = .ok t ∧
      Within (catalogMap (getSchemaCatalog J rows)) t.catalog ∧
      Within t.catalog (catalogMap (getSchemaCatalog J rows)) := by
  obtain ⟨t, ht, hrows⟩ := h.indexed
  refine ⟨t, ht, ?_⟩
  rcases h.networkProfile with hprofile | ⟨hprofile, rfl⟩
  · obtain ⟨records, hrecords, -⟩ := (indexedUpTo_ok hchain ht).records
    rw [← hprofile] at hrows
    rw [show rows = t.rows from hrows]
    exact hrecords.reloads (indexedUpTo_ok hchain ht).networkProfile J
  · -- Nothing was ever written: the tables have no profile, and so no schema.
    obtain rfl := Except.ok.inj ht
    rw [getSchemaCatalog, hprofile]
    exact ⟨fun _ _ hfound => (Option.some_ne_none _ hfound.symm).elim,
      fun _ _ hfound => (Option.some_ne_none _ hfound.symm).elim⟩

/-- A worker that has read its checkpoint, and then the catalog, knows both. -/
theorem Past.loads (hchain : IsIndexable P profile chain) (h : Past P profile chain m previous w)
    (J : JsonbReader) :
    Knows P profile chain m previous
      (catalogMap (getSchemaCatalog J w.rows.toProjectionRows)) w := by
  obtain ⟨hprevious, n, hle, hn⟩ := h
  obtain ⟨t, ht, hwithin, hincludes⟩ := hn.loads hchain J
  refine ⟨hprevious, ⟨n, t, hle, hn, ht, hwithin⟩, fun s hs => ?_⟩
  obtain ⟨s', hs', hextends⟩ := extends_of_le hchain ht hle
  obtain rfl : s = s' := Except.ok.inj (hs.symm.trans hs')
  exact fun uid entry hfound => hincludes uid entry (hextends.includes uid entry hfound)

/-- The projection of a ledger over a catalog that has what was indexed before, and nothing that is
not in `c`. -/
theorem projectsAlike_of_within (hchain : IsIndexable P profile chain) {s : IndexedState}
    (hs : indexedUpTo P profile chain m = .ok s) {projection : LedgerProjection}
    (hproject : projectLedger P (chain (profile.activationLedgerIndex + m)) profile catalog
      = .ok projection) {c : SchemaLookup} (hincludes : Within s.catalog catalog)
    (hwithin : Within catalog c)
    (hextends : ExtendsFrom (chain (profile.activationLedgerIndex + m)).ledgerIndex
      (chain (profile.activationLedgerIndex + m)).transactions.length
      (catalogAfter P (chain (profile.activationLedgerIndex + m)) profile
        (chain (profile.activationLedgerIndex + m)).transactions s.catalog) c) :
    ∃ expected, projectLedger P (chain (profile.activationLedgerIndex + m)) profile s.catalog
        = .ok expected ∧
      ProjectsAlike P (chain (profile.activationLedgerIndex + m)) profile
        (chain (profile.activationLedgerIndex + m)).transactions s.catalog catalog c := by
  obtain ⟨hpositions, -⟩ := projectLedger_eq_ok.mp hproject
  have hexpected := (@projectLedger_eq_ok P _ profile s.catalog _).mpr ⟨hpositions, rfl⟩
  refine ⟨_, hexpected, ?_⟩
  obtain ⟨records, hrecords, -⟩ := (indexedUpTo_ok hchain hs).records
  refine projectTransactions_agrees hpositions
    (hrecords.newUids (hchain.distinct m s _ hs hexpected)) hincludes hwithin ?_
  rw [Nat.zero_add]
  exact hextends

/-- **What a worker projects next fits**, when nobody has indexed the ledger before it. -/
theorem Knows.fits (hchain : IsIndexable P profile chain)
    (h : Knows P profile chain m previous catalog w)
    (hat : AtLedger P profile chain m w.rows.toProjectionRows) {projection : LedgerProjection}
    (hproject : projectLedger P (chain (profile.activationLedgerIndex + m)) profile catalog
      = .ok projection) : Fits P profile chain m projection := by
  obtain ⟨-, ⟨n, t, -, hn, ht, hwithin⟩, hincludes⟩ := h
  obtain rfl := hat.unique hchain hn
  obtain ⟨hpositions, rfl⟩ := projectLedger_eq_ok.mp hproject
  have hnext : ExtendsFrom (chain (profile.activationLedgerIndex + m)).ledgerIndex 0 t.catalog
      (catalogAfter P (chain (profile.activationLedgerIndex + m)) profile
        (chain (profile.activationLedgerIndex + m)).transactions t.catalog) := by
    obtain ⟨records, hrecords, -⟩ := (indexedUpTo_ok hchain ht).records
    exact extendsFrom_after hpositions (hrecords.newUids
      (hchain.distinct m t _ ht (projectLedger_eq_ok.mpr ⟨hpositions, rfl⟩)))
  obtain ⟨expected, hexpected, halike⟩ := projectsAlike_of_within hchain ht hproject
    (hincludes t ht) (hwithin.includes hnext.includes) (ExtendsFrom.refl _)
  refine ⟨t, expected, ht, hexpected, ?_⟩
  obtain ⟨-, rfl⟩ := projectLedger_eq_ok.mp hexpected
  exact ⟨rfl, halike.registrations, congrArg Prod.fst (halike.mutations hwithin).1⟩

/-- **What a worker knows after its ledger is in the tables**, whoever has written it. -/
theorem Knows.next (hchain : IsIndexable P profile chain)
    (h : Knows P profile chain m previous catalog w) {projection : LedgerProjection}
    (hproject : projectLedger P (chain (profile.activationLedgerIndex + m)) profile catalog
      = .ok projection)
    {n : ℕ} (hlt : m < n) (hn : AtLedger P profile chain n w.rows.toProjectionRows) :
    Knows P profile chain (m + 1)
      (some (checkpointFromLedger (chain (profile.activationLedgerIndex + m))))
      (catalogAfter P (chain (profile.activationLedgerIndex + m)) profile
        (chain (profile.activationLedgerIndex + m)).transactions catalog) w := by
  obtain ⟨-, ⟨n', t, -, hn', ht, hwithin⟩, hincludes⟩ := h
  obtain rfl := hn.unique hchain hn'
  obtain ⟨s', hs', hextends⟩ := extends_of_le hchain ht hlt
  obtain ⟨s, expected, hs, hexpected, hrows, hcatalog, -⟩ := indexedUpTo_succ.mp hs'
  have hindex := (indexedUpTo_ok hchain hs').ledgerIndex m (Nat.lt_succ_self m)
  rw [hcatalog] at hextends
  have hlater := (ExtendsFrom.refl _).trans hextends (Or.inl (by rw [hindex]; omega) :
    (chain (profile.activationLedgerIndex + m)).ledgerIndex < _ ∨ _ ∧
      (chain (profile.activationLedgerIndex + m)).transactions.length ≤ 0)
  obtain ⟨-, -, halike⟩ := projectsAlike_of_within hchain hs hproject (hincludes s hs) hwithin
    hlater
  refine ⟨rfl, ⟨n, t, hlt, hn, ht, halike.bounded⟩, fun s'' hs'' => ?_⟩
  obtain rfl := Except.ok.inj (hs'.symm.trans hs'')
  rw [hcatalog]
  exact halike.after

end Steady

/-! ## The worker -/

section Worker

variable {P : Platform} {chain : ℕ → ValidatedLedger} {worker : IndexerWorker}
  {token : IndexerLeaseToken} {tips : LedgerSourceTips} {w : FencingState} {m : ℕ}
  {previous : Option Checkpoint} {K : FencingState → Prop}

/-- What a computation of the worker does among the others. -/
abbrev AmongIndexers (P : Platform) (chain : ℕ → ValidatedLedger) (worker : IndexerWorker)
    {α : Type} (w : FencingState) (p : WorkerM α) (Q : FencingState → α → Prop) : Prop :=
  Among (Answered P chain) (Advances P worker.profile chain) (MayCall P worker.profile chain) w p Q

/-- A call that is always allowed does not disturb what is steady, and its answer is what it found
in the tables. -/
theorem Steady.asks_answered (hchain : IsIndexable P worker.profile chain)
    (hK : Steady P worker.profile chain K) (h : K w) {c : WorkerCall}
    (hmay : ∀ w', MayCall P worker.profile chain w' c) :
    AmongIndexers P chain worker w (ask c) fun w' a =>
      K w' ∧ ∃ w₁, K w₁ ∧ Answered P chain c w₁ (.ok a) w' := by
  refine Among.ask fun w₁ hw₁ => ⟨hmay w₁, fun a w₂ hanswered => ?_⟩
  have h₁ := hK.advances w w₁ h hw₁
  have hadvances := (calls_atLedger hchain (hK.atSomeLedger w₁ h₁) (hmay w₁) hanswered).2
  exact ⟨hK.advances w₁ w₂ h₁ hadvances, w₁, h₁, hanswered⟩

theorem Steady.asks (hchain : IsIndexable P worker.profile chain)
    (hK : Steady P worker.profile chain K) (h : K w) {c : WorkerCall}
    (hmay : ∀ w', MayCall P worker.profile chain w' c) :
    AmongIndexers P chain worker w (ask c) fun w' _ => K w' :=
  (hK.asks_answered hchain h hmay).mono fun _ _ h' => h'.1

theorem persistRuntimeStatus_among (hchain : IsIndexable P worker.profile chain)
    (hK : Steady P worker.profile chain K) (h : K w) (state : WritableIndexerStatusState) :
    AmongIndexers P chain worker w (persistRuntimeStatus token state) fun w' _ => K w' := by
  refine Among.bind (Among.get (Q := fun w' _ => K w') fun _ => h) fun w₁ s h₁ => ?_
  refine Among.bind (hK.asks hchain h₁ fun _ => trivial) fun w₂ _ h₂ => ?_
  exact Among.pure h₂

theorem reportLedger_among (hchain : IsIndexable P worker.profile chain)
    (hK : Steady P worker.profile chain K) (h : K w) (ledger : ValidatedLedger)
    (projection : LedgerProjection) (result : PersistResult) :
    AmongIndexers P chain worker w (reportLedger ledger projection result) fun w' _ => K w' := by
  cases result with
  | inserted =>
      refine Among.bind (hK.asks hchain h fun _ => trivial) fun w₁ _ h₁ => ?_
      exact Among.pure h₁
  | alreadyProcessed => exact Among.pure h

theorem adoptCheckpoint_among (h : K w) (checkpoint : Option Checkpoint) :
    AmongIndexers P chain worker w (adoptCheckpoint checkpoint) fun w' _ => K w' := by
  cases checkpoint with
  | none => exact Among.pure h
  | some checkpoint => exact Among.modify h

theorem fetchTips_among (hchain : IsIndexable P worker.profile chain)
    (hK : Steady P worker.profile chain K) (h : K w) :
    AmongIndexers P chain worker w (fetchTips worker) fun w' _ => K w' := by
  refine Among.bind (hK.asks hchain h fun _ => trivial) fun w₁ tips h₁ => ?_
  refine Among.bind (Among.modify (Q := fun w' _ => K w') h₁) fun w₂ _ h₂ => ?_
  refine Among.bind (Among.check (Q := fun w' _ => K w') fun _ _ => h₂) fun w₃ _ h₃ => ?_
  exact Among.pure h₃

theorem announceBatch_among (hchain : IsIndexable P worker.profile chain)
    (hK : Steady P worker.profile chain K) (h : K w) :
    AmongIndexers P chain worker w (announceBatch worker token tips previous)
      fun w' _ => K w' := by
  rw [announceBatch]
  split_ifs with hannounce hready
  · exact persistRuntimeStatus_among hchain hK h _
  · exact persistRuntimeStatus_among hchain hK h _
  · exact Among.pure h

theorem finishBatch_among (hchain : IsIndexable P worker.profile chain)
    (hK : Steady P worker.profile chain K) (h : K w) :
    AmongIndexers P chain worker w (finishBatch worker tips previous) fun w' _ => K w' := by
  rw [finishBatch]
  split_ifs with hpast hreplay
  · refine Among.bind (R := fun w' _ => K w') ?_ fun w₁ _ h₁ =>
      hK.asks hchain h₁ fun _ => trivial
    exact Among.bind (hK.asks hchain h fun _ => trivial) fun w₁ _ h₁ => Among.modify h₁
  · exact hK.asks hchain h fun _ => trivial
  · exact Among.pure h

/-- The call that writes a ledger. -/
theorem persistLedger_among (hchain : IsIndexable P worker.profile chain) {catalog : SchemaLookup}
    (h : Knows P worker.profile chain m previous catalog w) {projection : LedgerProjection}
    (hindex : projection.ledger.ledgerIndex = worker.profile.activationLedgerIndex + m)
    (hproject : projectLedger P (chain (worker.profile.activationLedgerIndex + m)) worker.profile
      catalog = .ok projection) (status : IndexerStatusUpdateInput) :
    AmongIndexers P chain worker w (ask (.persistLedger worker.profile projection token status))
      fun w' _ => Knows P worker.profile chain (m + 1)
        (some (checkpointFromLedger (chain (worker.profile.activationLedgerIndex + m))))
        (catalogAfter P (chain (worker.profile.activationLedgerIndex + m)) worker.profile
          (chain (worker.profile.activationLedgerIndex + m)).transactions catalog) w' := by
  refine Among.ask fun w₁ hw₁ => ?_
  have hsteady : Steady P worker.profile chain (Knows P worker.profile chain m previous catalog) :=
    steady_knows hchain
  have h₁ := hsteady.advances w w₁ h hw₁
  have hmay : MayCall P worker.profile chain w₁
      (.persistLedger worker.profile projection token status) := by
    refine ⟨rfl, fun n hn hnext => ?_⟩
    obtain rfl : m = n := by omega
    exact h₁.fits hchain hn hproject
  refine ⟨hmay, fun result w₂ hanswered => ?_⟩
  have h₂ := hsteady.advances w₁ w₂ h₁
    (calls_atLedger hchain (hsteady.atSomeLedger w₁ h₁) hmay hanswered).2
  obtain ⟨n, hn⟩ := hsteady.atSomeLedger w₁ h₁
  obtain ⟨⟨J, hdoes⟩, -⟩ := hanswered
  obtain ⟨clock, rows, hrows, hw₂⟩ := Transacts.of_ok hdoes
  obtain ⟨-, -, before, after, row, hensure, hpersists, hupdate⟩ :=
    persistLedger_eq_ok.mp (show Indexer.persistLedger P worker.profile projection token status
      clock w₁.rows = .ok (result, rows) from hrows)
  obtain ⟨_, _, -, -, -, -, -, rfl⟩ := updateIndexerStatus_ok hupdate
  -- Either the ledger was there before, or this call has written it.
  rcases hn.persists hchain (hmay.2 n hn) hensure hpersists with
    ⟨hafter, checkpoint, hfound⟩ | ⟨hafter, hwritten⟩
  · have hbefore := (hn.ensured hensure).1
    have hlt := hbefore.lt_of_sameIndex hchain hindex (by rw [hfound]; rfl)
    refine h₂.next hchain hproject hlt ?_
    rw [hw₂]
    exact hafter
  · refine h₂.next hchain hproject (n := n + 1) (by omega) ?_
    rw [hw₂]
    exact hafter

/-- **One ledger.** -/
theorem processLedger_among (hchain : IsIndexable P worker.profile chain) {progress : Progress}
    (h : Knows P worker.profile chain m progress.previous progress.catalog w) :
    AmongIndexers P chain worker w (processLedger P worker token tips progress)
      fun w' progress' =>
        Knows P worker.profile chain (m + 1) progress'.previous progress'.catalog w' := by
  refine Among.bind ((steady_knows hchain).asks hchain h fun _ => trivial) fun w₁ _ h₁ => ?_
  refine Among.bind (R := fun w₂ ledger =>
      Knows P worker.profile chain m progress.previous progress.catalog w₂ ∧
        ledger = chain (worker.profile.activationLedgerIndex + m))
    (((steady_knows hchain).asks_answered hchain h₁ fun _ => by trivial).mono ?_) ?_
  · rintro w₂ ledger ⟨h₂, w', -, -, hfrom⟩
    refine ⟨h₂, ?_⟩
    rw [← nextLedgerIndex_eq hchain rfl h₁]
    exact hfrom ledger rfl
  rintro w₂ ledger ⟨h₂, rfl⟩
  refine Among.bind (Among.check (Q := fun w' _ => w' = w₂ ∧
    Continues worker.profile progress.previous
      (chain (worker.profile.activationLedgerIndex + m))) fun _ hcheck =>
        ⟨rfl, assertLedgerContinuity_eq_ok.mp hcheck⟩) ?_
  rintro w₂ _ ⟨rfl, hcontinues⟩
  have hindex := nextLedgerIndex_of_continues hcontinues
  rw [nextLedgerIndex_eq hchain rfl h₂] at hindex
  refine Among.bind (Among.check (Q := fun w' projection => w' = w₂ ∧
    projectLedger P (chain (worker.profile.activationLedgerIndex + m)) worker.profile
      progress.catalog = .ok projection) fun projection hproject => ⟨rfl, hproject⟩) ?_
  rintro w₂ projection ⟨rfl, hproject⟩
  refine Among.bind (persistLedger_among hchain h₂ ?_ hproject _) fun w₃ result h₃ => ?_
  · rw [projectLedger_ledger hproject]
    exact hindex
  refine Among.bind (Among.modify (Q := fun w' _ => Knows P worker.profile chain (m + 1) _ _ w')
    h₃) fun w₄ _ h₄ => ?_
  refine Among.bind (reportLedger_among hchain (steady_knows hchain) h₄ _ _ _)
    fun w₅ _ h₅ => Among.pure ?_
  obtain ⟨-, rfl⟩ := projectLedger_eq_ok.mp hproject
  exact h₅

/-- **The ledgers of a batch.**  By induction on their number. -/
theorem processLedgers_among (hchain : IsIndexable P worker.profile chain) {count : ℕ}
    {progress : Progress}
    (h : Knows P worker.profile chain m progress.previous progress.catalog w) :
    AmongIndexers P chain worker w (processLedgers P worker token tips count progress)
      fun w' _ => AtSomeLedger P worker.profile chain w' := by
  induction count generalizing m progress w with
  | zero => exact Among.pure ((steady_knows hchain).atSomeLedger w h)
  | succ count ih => exact Among.bind (processLedger_among hchain h) fun w' progress' h' => ih h'

/-- **A batch.**  What it knows begins with the checkpoint and the catalog that it loads. -/
theorem runOnce_among (hchain : IsIndexable P worker.profile chain)
    (h : AtSomeLedger P worker.profile chain w) :
    AmongIndexers P chain worker w (runOnce P worker token)
      fun w' _ => AtSomeLedger P worker.profile chain w' := by
  have hsteady := @steady_atSomeLedger P worker.profile chain
  refine Among.bind (Among.get (Q := fun w' _ => AtSomeLedger P worker.profile chain w')
    fun _ => h) fun w₁ s h₁ => ?_
  refine Among.bind (Among.check (Q := fun w' _ => AtSomeLedger P worker.profile chain w')
    fun _ _ => h₁) fun w₂ _ h₂ => ?_
  refine Among.bind (hsteady.asks hchain h₂ fun _ => trivial) fun w₃ _ h₃ => ?_
  refine Among.bind (R := fun w' found => ∃ m, Past P worker.profile chain m found w')
    ((hsteady.asks_answered hchain h₃ fun _ => by trivial).mono ?_) ?_
  · rintro w' found ⟨h', w'', ⟨n, hn⟩, ⟨J, hsame, hfound⟩, -⟩
    obtain rfl : w' = w'' := hsame
    rcases hfound with hfound | ⟨error, hfound⟩
    · refine ⟨n, ?_, n, le_rfl, hn⟩
      rw [← hn.checkpoint hchain]
      exact Except.ok.inj hfound
    · cases hfound
  rintro w₄ found ⟨m, h₄⟩
  refine Among.bind (adoptCheckpoint_among h₄ found) fun w₅ _ h₅ => ?_
  refine Among.bind (R := fun w' entries =>
      Knows P worker.profile chain m found (catalogMap entries) w')
    ((steady_past.asks_answered hchain h₅ fun _ => by trivial).mono ?_) fun w₆ entries h₆ => ?_
  · rintro w' entries ⟨h', w'', -, ⟨J, hsame, hfound⟩, -⟩
    obtain rfl : w' = w'' := hsame
    rcases hfound with hfound | ⟨error, hfound⟩
    · obtain rfl := Except.ok.inj hfound
      exact h'.loads hchain J
    · cases hfound
  have hknows : Steady P worker.profile chain
      (Knows P worker.profile chain m found (catalogMap entries)) := steady_knows hchain
  refine Among.bind (fetchTips_among hchain hknows h₆) fun w₇ tips h₇ => ?_
  refine Among.bind (hknows.asks hchain h₇ fun _ => trivial) fun w₈ _ h₈ => ?_
  refine Among.bind (announceBatch_among hchain hknows h₈) fun w₉ _ h₉ => ?_
  refine Among.bind (processLedgers_among hchain h₉) fun w₁₀ progress h₁₀ => ?_
  refine Among.bind (finishBatch_among hchain hsteady h₁₀) fun w₁₁ _ h₁₁ => ?_
  exact Among.pure h₁₁

/-! ## The start -/

theorem verifyReplayTarget_among (hchain : IsIndexable P worker.profile chain)
    (hK : Steady P worker.profile chain K) (h : K w) :
    AmongIndexers P chain worker w (verifyReplayTarget worker token tips) fun w' _ => K w' := by
  rw [verifyReplayTarget]
  cases worker.replayTarget with
  | none => exact Among.pure h
  | some target =>
      refine Among.bind (Among.check (Q := fun w' _ => K w') fun _ _ => h) fun w₁ _ h₁ => ?_
      refine Among.bind (hK.asks hchain h₁ fun _ => trivial) fun w₂ ledger h₂ => ?_
      refine Among.bind (Among.check (Q := fun w' _ => K w') fun _ _ => h₂) fun w₃ _ h₃ => ?_
      refine Among.bind (Among.modify (Q := fun w' _ => K w') h₃) fun w₄ _ h₄ => ?_
      exact Among.bind (hK.asks hchain h₄ fun _ => trivial) fun w₅ _ h₅ => Among.pure h₅

theorem agreedCheckpoint_among (hchain : IsIndexable P worker.profile chain)
    (hK : Steady P worker.profile chain K) (h : K w) (replayLedger : Option ValidatedLedger)
    (checkpoint : Checkpoint) :
    AmongIndexers P chain worker w (agreedCheckpoint replayLedger checkpoint)
      fun w' _ => K w' := by
  cases replayLedger with
  | none => exact hK.asks hchain h fun _ => trivial
  | some ledger =>
      rw [agreedCheckpoint]
      split_ifs with hsame
      · exact Among.pure h
      · exact hK.asks hchain h fun _ => trivial

theorem verifyCheckpoint_among (hchain : IsIndexable P worker.profile chain)
    (hK : Steady P worker.profile chain K) (h : K w) (replayLedger : Option ValidatedLedger)
    (found : Option Checkpoint) :
    AmongIndexers P chain worker w (verifyCheckpoint worker tips replayLedger found)
      fun w' _ => K w' := by
  cases found with
  | none => exact Among.pure h
  | some checkpoint =>
      refine Among.bind (Among.check (Q := fun w' _ => K w') fun _ _ => h) fun w₁ _ h₁ => ?_
      refine Among.bind (Among.check (Q := fun w' _ => K w') fun _ _ => h₁) fun w₂ _ h₂ => ?_
      refine Among.bind (agreedCheckpoint_among hchain hK h₂ replayLedger checkpoint)
        fun w₃ ledger h₃ => ?_
      refine Among.bind (Among.check (Q := fun w' _ => K w') fun _ _ => h₃) fun w₄ _ h₄ => ?_
      exact Among.modify h₄

/-- The loop of `start`, by induction on its bound. -/
theorem runLoop_among (hchain : IsIndexable P worker.profile chain) {fuel : ℕ}
    (h : AtSomeLedger P worker.profile chain w) :
    AmongIndexers P chain worker w (runLoop P worker token fuel)
      fun w' _ => AtSomeLedger P worker.profile chain w' := by
  have hsteady := @steady_atSomeLedger P worker.profile chain
  induction fuel generalizing w with
  | zero => exact Among.stopWorker
  | succ fuel ih =>
      refine Among.bind (hsteady.asks hchain h fun _ => trivial) fun w₁ aborted h₁ => ?_
      cases aborted with
      | true => exact Among.pure h₁
      | false =>
          refine Among.bind (runOnce_among hchain h₁) fun w₂ _ h₂ => ?_
          refine Among.bind (Among.get (Q := fun w' _ => AtSomeLedger P worker.profile chain w')
            fun _ => h₂) fun w₃ s h₃ => ?_
          cases s.replayCompleted with
          | true =>
              rw [if_pos rfl]
              exact Among.pure h₃
          | false =>
              rw [if_neg Bool.false_ne_true]
              exact Among.bind (hsteady.asks hchain h₃ fun _ => trivial) fun w₄ _ h₄ => ih h₄

theorem startWorker_among (hchain : IsIndexable P worker.profile chain) {fuel : ℕ}
    (h : AtSomeLedger P worker.profile chain w) :
    AmongIndexers P chain worker w (startWorker P worker fuel)
      fun w' _ => AtSomeLedger P worker.profile chain w' := by
  have hsteady := @steady_atSomeLedger P worker.profile chain
  have modifies : ∀ {w' : FencingState} (f : WorkerState → WorkerState),
      AtSomeLedger P worker.profile chain w' →
      AmongIndexers P chain worker w' (modify f)
        fun w'' _ => AtSomeLedger P worker.profile chain w'' := fun _ h' => Among.modify h'
  refine Among.bind (hsteady.asks hchain h fun _ => rfl) fun w₁ _ h₁ => ?_
  refine Among.bind (hsteady.asks hchain h₁ fun _ => trivial) fun w₂ acquired h₂ => ?_
  refine Among.bind (modifies _ h₂) fun w₃ _ h₃ => ?_
  refine Among.bind (hsteady.asks hchain h₃ fun _ => trivial) fun w₄ _ h₄ => ?_
  refine Among.bind (hsteady.asks hchain h₄ fun _ => trivial) fun w₅ _ h₅ => ?_
  refine Among.bind (hsteady.asks hchain h₅ fun _ => trivial) fun w₆ preflight h₆ => ?_
  refine Among.bind (modifies _ h₆) fun w₇ _ h₇ => ?_
  refine Among.bind (hsteady.asks hchain h₇ fun _ => trivial) fun w₈ _ h₈ => ?_
  refine Among.bind (verifyReplayTarget_among hchain hsteady h₈) fun w₉ replayLedger h₉ => ?_
  refine Among.bind (hsteady.asks hchain h₉ fun _ => trivial) fun w₁₀ found h₁₀ => ?_
  refine Among.bind (verifyCheckpoint_among hchain hsteady h₁₀ replayLedger found)
    fun w₁₁ _ h₁₁ => ?_
  refine Among.bind (hsteady.asks hchain h₁₁ fun _ => trivial) fun w₁₂ _ h₁₂ => ?_
  refine Among.bind (persistRuntimeStatus_among hchain hsteady h₁₂ _) fun w₁₃ _ h₁₃ => ?_
  exact runLoop_among hchain h₁₃

/-- A call after the `try` of `start`, of which nothing is known but that it may be made. -/
theorem settled_among {c : WorkerCall} (hmay : ∀ w', MayCall P worker.profile chain w' c) :
    AmongIndexers P chain worker w (settled (ask c)) fun _ _ => True :=
  Among.settled (R := fun _ _ => True)
    (Among.ask fun w₁ _ => ⟨hmay w₁, fun _ _ _ => trivial⟩) fun _ _ => trivial

/-- **A start**, from any world that indexing without interruption leads to. -/
theorem start_among (hchain : IsIndexable P worker.profile chain) {fuel : ℕ}
    (h : AtSomeLedger P worker.profile chain w) :
    AmongIndexers P chain worker w (start P worker fuel) fun _ _ => True := by
  refine Among.bind (Among.get (Q := fun w' _ => AtSomeLedger P worker.profile chain w')
    fun _ => h) fun w₁ s h₁ => ?_
  refine Among.bind (Among.check (Q := fun w' _ => AtSomeLedger P worker.profile chain w')
    fun _ _ => h₁) fun w₂ _ h₂ => ?_
  refine Among.bind (Among.settled (Q := fun _ _ => True) (startWorker_among hchain h₂)
    fun _ _ => trivial) fun w₃ outcome _ => ?_
  refine Among.bind (R := fun _ _ => True) ?_ fun w₄ haltAttempted _ => ?_
  · cases outcome with
    | ok _ => exact Among.pure trivial
    | error error =>
        refine Among.bind (Among.get (Q := fun _ _ => True) fun _ => trivial) fun w₅ s _ => ?_
        cases s.activeLease with
        | none => exact Among.pure trivial
        | some token =>
            exact Among.bind (settled_among fun _ => trivial) fun _ _ _ => Among.pure trivial
  refine Among.bind (settled_among fun _ => trivial) fun w₅ disconnected _ => ?_
  refine Among.bind (R := fun _ _ => True) ?_ fun w₆ released _ => ?_
  · refine Among.bind (Among.get (Q := fun _ _ => True) fun _ => trivial) fun w₇ s _ => ?_
    split
    · exact Among.bind (settled_among fun _ => trivial) fun _ _ _ => Among.pure trivial
    · exact Among.pure trivial
  refine Among.bind (Among.modify (Q := fun _ _ => True) trivial) fun w₇ _ _ => ?_
  split
  · exact Among.pure trivial
  · refine Among.bind (R := fun _ _ => True)
      (Among.ask fun w₁ _ => ⟨trivial, fun _ _ _ => trivial⟩) fun _ _ _ => ?_
    exact Among.check fun _ _ => trivial

end Worker

/-! ## Any number of indexers -/

/-- The indexers of a profile, each with its own settings, that share the tables of the profile.
The clock of the database goes on. -/
def indexerRules (P : Platform) (profile : NetworkProfile) (chain : ℕ → ValidatedLedger) :
    Pool.Rules WorkerCall WorkerCall.Answer (Thrown × WorkerState) (Unit × WorkerState)
      FencingState where
  starts := fun program => ∃ worker : IndexerWorker, worker.profile = profile ∧
    ∃ fuel fields, program = start P worker fuel fields
  performs := Answered P chain
  changes := fun w w' => w'.rows = w.rows ∧ w.clock ≤ w'.clock
  allows := fun _ _ _ => True

/-- The state of every run of a pool from empty tables. -/
theorem atSomeLedger_of_run {P : Platform} {profile : NetworkProfile}
    {chain : ℕ → ValidatedLedger} (hchain : IsIndexable P profile chain)
    {pool pool' : Pool WorkerCall WorkerCall.Answer (Thrown × WorkerState) (Unit × WorkerState)
      FencingState}
    {events : List (PoolEvent WorkerCall WorkerCall.Answer (Thrown × WorkerState)
      (Unit × WorkerState))}
    (hrun : Run (Pool.Step (indexerRules P profile chain)) pool events pool')
    (hempty : pool.programs = [])
    (hstart : pool.world.rows.toProjectionRows = ProjectionRows.empty) :
    AtSomeLedger P profile chain pool'.world := by
  have hbegin : AtSomeLedger P profile chain pool.world := by
    refine ⟨0, ⟨_, rfl, ?_⟩, Or.inr ⟨?_, rfl⟩⟩
    · rw [hstart]
      rfl
    · rw [hstart]
      rfl
  refine (@Pool.relyGuarantee _ _ _ _ _ (indexerRules P profile chain)
    (AtSomeLedger P profile chain) (Advances P profile chain) (MayCall P profile chain) _ ?_
    Advances.refl ?_ ?_ pool pool' events hrun hbegin hempty).world
  · rintro world program hworld ⟨worker, rfl, fuel, fields, rfl⟩
    exact (start_among hchain hworld fields).mono fun _ _ _ => trivial
  · rintro c world answer world' hworld hmay hanswered
    exact calls_atLedger hchain hworld hmay hanswered
  · rintro world world' ⟨n, hn⟩ ⟨hrows, -⟩
    refine ⟨⟨n, ?_⟩, fun n hn => ⟨n, le_rfl, ?_⟩⟩
    · rw [hrows]
      exact hn
    · rw [hrows]
      exact hn

/-- **The tables are those of one indexer that was never interrupted.**  However many indexers of a
profile run, fail, stop and start again, whatever they read in between and in whatever order the
members of their documents come: the tables hold what indexing some first ledgers of the chain one
after the other leaves, to the row and to its position. -/
theorem projection_uninterrupted {P : Platform} {profile : NetworkProfile}
    {chain : ℕ → ValidatedLedger} (hchain : IsIndexable P profile chain)
    {pool pool' : Pool WorkerCall WorkerCall.Answer (Thrown × WorkerState) (Unit × WorkerState)
      FencingState}
    {events : List (PoolEvent WorkerCall WorkerCall.Answer (Thrown × WorkerState)
      (Unit × WorkerState))}
    (hrun : Run (Pool.Step (indexerRules P profile chain)) pool events pool')
    (hempty : pool.programs = [])
    (hstart : pool.world.rows.toProjectionRows = ProjectionRows.empty) :
    ∃ n s, indexedUpTo P profile chain n = .ok s ∧
      { pool'.world.rows.toProjectionRows with networkProfile := some (profileRow profile) }
        = s.rows ∧
      (pool'.world.rows.networkProfile = some (profileRow profile) ∨
        pool'.world.rows.networkProfile = none ∧ n = 0) := by
  obtain ⟨n, ⟨s, hs, hrows⟩, hprofile⟩ := atSomeLedger_of_run hchain hrun hempty hstart
  exact ⟨n, s, hs, hrows, hprofile⟩

/-! ## A run -/

/-- What the source of a chain answers. -/
def requested (chain : ℕ → ValidatedLedger) : WorkerCall → List ValidatedLedger
  | .getLedger ledgerIndex => [chain ledgerIndex]
  | _ => []

/-- So many calls of a program whose source answers the ledgers of a chain. -/
def driveAlong (P : Platform) (J : JsonbReader) (tips : LedgerSourceTips)
    (preflight : LedgerSourcePreflight) (chain : ℕ → ValidatedLedger) {α : Type} :
    ℕ → FencingState × Program WorkerCall WorkerCall.Answer (Thrown × WorkerState) α →
      FencingState × Program WorkerCall WorkerCall.Answer (Thrown × WorkerState) α
  | count + 1, (w, .call c next) =>
      let answered := answerCall P J tips preflight (requested chain c) w c
      driveAlong P J tips preflight chain count (answered.2, next answered.1)
  | _, s => s

theorem driveAlong_run (P : Platform) (J : JsonbReader) (tips : LedgerSourceTips)
    (preflight : LedgerSourcePreflight) (profile : NetworkProfile) (chain : ℕ → ValidatedLedger)
    (count : ℕ) (s : FencingState × Program WorkerCall WorkerCall.Answer (Thrown × WorkerState)
      (Unit × WorkerState)) :
    ∃ events, Run (Pool.Step (indexerRules P profile chain)) ⟨s.1, [s.2]⟩ events
      ⟨(driveAlong P J tips preflight chain count s).1,
        [(driveAlong P J tips preflight chain count s).2]⟩ := by
  induction count generalizing s with
  | zero => exact ⟨[], .nil _⟩
  | succ count ih =>
      obtain ⟨w, result | _ | ⟨c, next⟩⟩ := s
      · exact ⟨[], .nil _⟩
      · exact ⟨[], .nil _⟩
      · obtain ⟨events, hrun⟩ := ih ((answerCall P J tips preflight (requested chain c) w c).2,
          next (answerCall P J tips preflight (requested chain c) w c).1)
        have hanswered : Answered P chain c w
            (answerCall P J tips preflight (requested chain c) w c).1
            (answerCall P J tips preflight (requested chain c) w c).2 := by
          refine ⟨⟨J, answerCall_does P J tips preflight (requested chain c) w c⟩, ?_⟩
          cases c with
          | getLedger ledgerIndex =>
              rintro ledger ⟨⟩
              rfl
          | _ => trivial
        have hstep : Pool.Step (indexerRules P profile chain) ⟨w, [.call c next]⟩
            (.call 0 c (answerCall P J tips preflight (requested chain c) w c).1)
            ⟨(answerCall P J tips preflight (requested chain c) w c).2,
              [next (answerCall P J tips preflight (requested chain c) w c).1]⟩ :=
          @Pool.Step.call _ _ _ _ _ _ _ _ [.call c next] 0 c next _ rfl trivial hanswered
        exact ⟨_, (Run.single hstep).append hrun⟩

/-- A chain with one transaction, in its first ledger. -/
def shortChain (ledgerIndex : ℕ) : ValidatedLedger :=
  if ledgerIndex = 7 then registrationLedger (js "1") else emptyLedger

/-- A ledger has no more registrations than transactions. -/
theorem length_registrations_le {P : Platform} {profile : NetworkProfile} {ledger : ValidatedLedger}
    {transactions : List LedgerTransaction} {catalog : SchemaLookup} :
    (projectTransactions P ledger profile transactions catalog).1.length
      ≤ transactions.length := by
  induction transactions generalizing catalog with
  | nil => exact le_rfl
  | cons transaction transactions ih =>
      rw [projectTransactions, List.length_append, List.length_cons, Nat.add_comm]
      exact Nat.add_le_add ih Option.length_toList_le

theorem length_le_of_projectLedger {P : Platform} {profile : NetworkProfile}
    {ledger : ValidatedLedger} {catalog : SchemaLookup} {projection : LedgerProjection}
    (h : projectLedger P ledger profile catalog = .ok projection) :
    projection.schemaRegistrations.length ≤ ledger.transactions.length := by
  obtain ⟨-, rfl⟩ := projectLedger_eq_ok.mp h
  exact length_registrations_le

theorem DistinctRegistrations.of_length_le_one {registrations : List SchemaRegistrationResult}
    (h : registrations.length ≤ 1) : DistinctRegistrations registrations := by
  rcases registrations with _ | ⟨registration, _ | ⟨other, registrations⟩⟩
  · exact ⟨List.nodup_nil, List.nodup_nil⟩
  · refine ⟨?_, List.nodup_singleton _⟩
    rw [List.filterMap_cons]
    cases registration.schemaUid with
    | none => exact List.nodup_nil
    | some uid => exact List.nodup_singleton _
  · rw [List.length_cons, List.length_cons] at h
    omega

theorem length_registrations_shortChain {n : ℕ} {s : IndexedState}
    (h : indexedUpTo .sample testnetProfile shortChain n = .ok s) :
    s.registrations.length + (shortChain (7 + n)).transactions.length ≤ 1 := by
  induction n generalizing s with
  | zero =>
      obtain rfl := Except.ok.inj h
      exact le_rfl
  | succ n ih =>
      obtain ⟨before, projection, hbefore, hprojection, -, -, hregistrations⟩ :=
        indexedUpTo_succ.mp h
      have hnone : (shortChain (7 + (n + 1))).transactions.length = 0 := by
        rw [shortChain, if_neg (by omega)]
        rfl
      have hfew := ih hbefore
      have hadded := length_le_of_projectLedger hprojection
      rw [show testnetProfile.activationLedgerIndex = 7 from rfl] at hadded
      rw [hregistrations, List.length_append, hnone]
      omega

theorem isIndexable_shortChain : IsIndexable .sample testnetProfile shortChain where
  normalized := by
    intro i
    rw [shortChain]
    split_ifs with hindex
    · exact {
        ledgerIndex := (by decide : 7 ≤ 0xffffffff)
        ledgerHash := (by decide : isLowerHash (List.replicate 64 0x61) = true)
        parentHash := (by decide : isLowerHash (List.replicate 64 0x30) = true)
        transactionRoot := (by decide : isLowerHash (List.replicate 64 0x31) = true)
        closeTime := Nat.zero_le _
        transactionIndices := rfl
        transactionIndex := List.forall_mem_singleton.mpr (Nat.zero_le _)
        transactionHash := List.forall_mem_singleton.mpr
          (by decide : isLowerHash (List.replicate 64 0x62) = true)
        transactionHashes := List.nodup_singleton _
        metadata := List.forall_mem_singleton.mpr rfl }
    · exact {
        ledgerIndex := (by decide : 7 ≤ 0xffffffff)
        ledgerHash := (by decide : isLowerHash (List.replicate 64 0x61) = true)
        parentHash := (by decide : isLowerHash (List.replicate 64 0x30) = true)
        transactionRoot := (by decide : isLowerHash (List.replicate 64 0x31) = true)
        closeTime := Nat.zero_le _
        transactionIndices := rfl
        transactionIndex := List.forall_mem_nil _
        transactionHash := List.forall_mem_nil _
        transactionHashes := List.nodup_nil
        metadata := List.forall_mem_nil _ }
  distinct := by
    intro n s projection hs hprojection
    have hfew := length_registrations_shortChain hs
    have hadded := length_le_of_projectLedger hprojection
    rw [show testnetProfile.activationLedgerIndex = 7 from rfl] at hadded
    refine .of_length_le_one ?_
    rw [List.length_append]
    omega

/-- One indexer of `shortChain`, up to where it has written the first ledger. -/
def shortRun : FencingState × Program WorkerCall WorkerCall.Answer (Thrown × WorkerState)
    (Unit × WorkerState) :=
  driveAlong .sample .exact ⟨7, 7, 7⟩ ⟨1, [⟨7, 7⟩], sampleLedger, ⟨7, 7, 7⟩⟩ shortChain 25
    (⟨.empty, 0⟩, start .sample (activationWorker (List.replicate 64 0x61)) 1 idleState)

theorem shortRun_run : ∃ events, Run (Pool.Step (indexerRules .sample testnetProfile shortChain))
    ⟨⟨.empty, 0⟩, [start .sample (activationWorker (List.replicate 64 0x61)) 1 idleState]⟩ events
    ⟨shortRun.1, [shortRun.2]⟩ :=
  driveAlong_run .sample .exact ⟨7, 7, 7⟩ ⟨1, [⟨7, 7⟩], sampleLedger, ⟨7, 7, 7⟩⟩ testnetProfile
    shortChain 25 (⟨.empty, 0⟩, _)

/-- One indexer writes the first ledger of `shortChain`, with its registration. -/
theorem projection_uninterrupted_sample : ∃ n s,
    indexedUpTo .sample testnetProfile shortChain n = .ok s ∧
      { shortRun.1.rows.toProjectionRows with
        networkProfile := some (profileRow testnetProfile) } = s.rows ∧
      s.rows.schemaEvents.length = 1 := by
  obtain ⟨events, hrun⟩ := shortRun_run
  have hevents : shortRun.1.rows.schemaEvents.length = 1 := by decide +kernel
  -- The run is not to be evaluated again.
  generalize shortRun = reached at hrun hevents ⊢
  have hbegin : Pool.Step (indexerRules .sample testnetProfile shortChain)
      ⟨⟨.empty, 0⟩, []⟩ (.start _) ⟨⟨.empty, 0⟩,
        [start .sample (activationWorker (List.replicate 64 0x61)) 1 idleState]⟩ :=
    .start ⟨activationWorker (List.replicate 64 0x61), rfl, 1, idleState, rfl⟩
  obtain ⟨n, s, hs, hrows, -⟩ := projection_uninterrupted isIndexable_shortChain
    ((Run.single hbegin).append hrun) rfl rfl
  refine ⟨n, s, hs, hrows, ?_⟩
  rw [← hrows]
  exact hevents

end Indexer
end Xcs
