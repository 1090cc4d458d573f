import Mathlib.Data.Int.Notation
import Mathlib.Data.Fintype.Basic
import Mathlib.Data.List.Dedup
import Mathlib.Data.List.Induction
import Mathlib.Tactic.FinCases
import Xcs.Js.Text
import Xcs.Run.InsertionMap

/-!
# The rate limiter

`createLimiter` keeps one window for each bucket in a `Map`, drops the windows that are over an hour
old from time to time, and drops windows from the front of the map when a new bucket finds it full.
`plainHit` is the counter it stands for: one window for each bucket, never dropped.

The front of the map is the bucket that was inserted first.  `Map.prototype.set` leaves a key that
is there where it is, so a bucket that is hit again does not move back, and what goes first need not
be the window that has gone longest without a hit.  `decision_differs` is a run with two live
buckets in which a spent budget is refunded.

* `Orderly` says of one hit that the first window may go if one has to go, and that the reading of
  the clock in `prune` reaches no window that is still counting.
* `hit_dropped`: what an orderly hit drops has elapsed, or else was least recently hit.
* `limiter_refines`: in a run of orderly hits the limiter takes the decisions of the plain counter
  while fewer buckets are live than the map may hold.
-/

namespace Xcs
namespace Web

open Js

/-! ## The limiter -/

/-- `RouteRateLimit` -/
structure RouteRateLimit where
  max : ℕ
  timeWindowMs : ℕ

/-- `RateLimitDecision` -/
structure RateLimitDecision where
  allowed : Bool
  limit : ℕ
  remaining : ℕ
  retryAfterSeconds : ℤ
  deriving DecidableEq

/-- `Window` -/
structure Window where
  count : ℕ
  windowStart : ℤ
  deriving DecidableEq

/-- The variables of `createLimiter`. -/
structure Limiter where
  windows : InsertionMap JsString Window
  lastPrune : ℤ

/-- `createLimiter`, with what the clock reads at that time. -/
def createLimiter (start : ℤ) : Limiter := ⟨.empty, start⟩

/-- `3_600_000` -/
def hourMs : ℤ := 3600000

/-- The loop of `prune` and the first loop of `makeRoom`. -/
def dropStale (windows : InsertionMap JsString Window) (current : ℤ) :
    InsertionMap JsString Window :=
  windows.retain fun e => !decide (current - e.2.windowStart > hourMs)

/-- `prune`, with what the clock reads in it. -/
def prune (s : Limiter) (current : ℤ) : Limiter := ⟨dropStale s.windows current, current⟩

/-- The second loop of `makeRoom`, over the keys that are left. -/
def dropOldest (maxWindows : ℕ) :
    List JsString → InsertionMap JsString Window → InsertionMap JsString Window
  | [], windows => windows
  | key :: keys, windows =>
      if windows.size < maxWindows then windows
      else dropOldest maxWindows keys (windows.delete key)

/-- `makeRoom` -/
def makeRoom (maxWindows : ℕ) (windows : InsertionMap JsString Window) (current : ℤ) :
    InsertionMap JsString Window :=
  if windows.size < maxWindows then windows
  else dropOldest maxWindows (dropStale windows current).keys (dropStale windows current)

/-- The arguments of `hit`, what the clock reads at its beginning, and what it reads in `prune` when
the hit prunes. -/
structure Hit where
  key : JsString
  limit : RouteRateLimit
  current : ℤ
  again : ℤ

/-- The window a hit is counted in, with the hit. -/
def countHit (existing : Option Window) (limit : RouteRateLimit) (current : ℤ) : Window :=
  match existing with
  | none => ⟨1, current⟩
  | some w =>
      if current - w.windowStart ≥ limit.timeWindowMs then ⟨1, current⟩
      else ⟨w.count + 1, w.windowStart⟩

/-- The answer of `hit`.  `Math.ceil(x / 1000)` is `-(-x / 1000)` for the division that rounds
down. -/
def decisionOf (limit : RouteRateLimit) (window : Window) (current : ℤ) : RateLimitDecision where
  allowed := window.count ≤ limit.max
  limit := limit.max
  remaining := limit.max - window.count
  retryAfterSeconds := max 1 (-(-(limit.timeWindowMs - (current - window.windowStart)) / 1000))

/-- The first lines of `hit`. -/
def pruneIfDue (s : Limiter) (h : Hit) : Limiter :=
  if h.current - s.lastPrune > hourMs then prune s h.again else s

/-- The windows that a hit writes to. -/
def roomFor (maxWindows : ℕ) (windows : InsertionMap JsString Window) (h : Hit) :
    InsertionMap JsString Window :=
  if windows.get h.key = none then makeRoom maxWindows windows h.current else windows

/-- `hit` -/
def hit (maxWindows : ℕ) (s : Limiter) (h : Hit) : Limiter × RateLimitDecision :=
  let s := pruneIfDue s h
  let window := countHit (s.windows.get h.key) h.limit h.current
  (⟨(roomFor maxWindows s.windows h).set h.key window, s.lastPrune⟩,
    decisionOf h.limit window h.current)

/-- The limiter after a run of hits. -/
def limiterAfter (maxWindows : ℕ) (start : ℤ) (past : List Hit) : Limiter :=
  past.foldl (fun s h => (hit maxWindows s h).1) (createLimiter start)

/-! ## The plain counter -/

/-- A hit of the counter that keeps every window. -/
def plainHit (c : JsString → Option Window) (h : Hit) :
    (JsString → Option Window) × RateLimitDecision :=
  let window := countHit (c h.key) h.limit h.current
  (fun j => if j = h.key then some window else c j, decisionOf h.limit window h.current)

/-- The plain counter after a run of hits. -/
def plainAfter (past : List Hit) : JsString → Option Window :=
  past.foldl (fun c h => (plainHit c h).1) fun _ => none

/-- The readings of the clock in a run, in their order. -/
def readings (start : ℤ) (hits : List Hit) : List ℤ :=
  start :: hits.flatMap fun h => [h.current, h.again]

section Span

variable (span : JsString → ℕ)

/-- The window of a bucket is over.  `span` is the longest time the bucket is counted for. -/
def Elapsed (k : JsString) (w : Window) (current : ℤ) : Prop :=
  span k ≤ current - w.windowStart

instance (k : JsString) (w : Window) (current : ℤ) : Decidable (Elapsed span k w current) :=
  inferInstanceAs (Decidable (_ ≤ _))

/-- The buckets whose window is not over. -/
def liveKeys (past : List Hit) (current : ℤ) : List JsString :=
  (past.map Hit.key).dedup.filter fun k =>
    (plainAfter past k).any fun w => !decide (Elapsed span k w current)

/-- A bucket was hit after the last hit of another one. -/
def HitSince (past : List Hit) (k j : JsString) : Prop :=
  ∃ before since, past = before ++ since ∧ k ∉ since.map Hit.key ∧ j ∈ since.map Hit.key

/-- A bucket is the one of the map that was least recently hit. -/
def LeastRecentlyHit (past : List Hit) (windows : InsertionMap JsString Window) (k : JsString) :
    Prop :=
  ∀ j ∈ windows.keys, j ≠ k → HitSince past k j

/-- A window may be dropped: it is over, or else none is and it was least recently hit. -/
def MayGo (past : List Hit) (windows : InsertionMap JsString Window) (current : ℤ) (k : JsString)
    (w : Window) : Prop :=
  Elapsed span k w current ∨
    (∀ e ∈ windows.entries, ¬ Elapsed span e.1 e.2 current) ∧ LeastRecentlyHit past windows k

/-- What a hit needs of the state before it: the second reading of the clock makes `prune` reach no
window that is still counting, and the window at the front of a full map may go. -/
structure Orderly (maxWindows : ℕ) (s : Limiter) (past : List Hit) (h : Hit) : Prop where
  pruned : h.current - s.lastPrune > hourMs → ∀ e ∈ s.windows.entries,
    h.again - e.2.windowStart > hourMs → Elapsed span e.1 e.2 h.current
  full : (pruneIfDue s h).windows.get h.key = none →
    maxWindows ≤ (dropStale (pruneIfDue s h).windows h.current).size →
    ∀ e ∈ (pruneIfDue s h).windows.entries.head?,
      MayGo span past (pruneIfDue s h).windows h.current e.1 e.2

/-! ## What a hit drops -/

variable {span : JsString → ℕ} {maxWindows : ℕ} {windows : InsertionMap JsString Window}
  {current : ℤ}

theorem get_dropStale {k : JsString} {w : Window} :
    (dropStale windows current).get k = some w ↔
      windows.get k = some w ∧ current - w.windowStart ≤ hourMs := by
  rw [dropStale, InsertionMap.get_retain_eq_some_iff]
  simp

theorem size_delete_head_lt {e : JsString × Window} (h : e ∈ windows.entries) :
    (windows.delete e.1).size < windows.size := by
  refine List.length_filter_lt_length_iff_exists.mpr ⟨e, h, ?_⟩
  simp

/-- A map that is no fuller than it may be loses at most the window at its front. -/
theorem dropOldest_keys (hcap : 0 < maxWindows) (hsize : windows.size ≤ maxWindows) :
    (windows.size < maxWindows ∧ dropOldest maxWindows windows.keys windows = windows) ∨
      (windows.size = maxWindows ∧ ∃ e ∈ windows.entries.head?,
        (windows.delete e.1).size < maxWindows ∧
        dropOldest maxWindows windows.keys windows = windows.delete e.1) := by
  by_cases hlt : windows.size < maxWindows
  · refine .inl ⟨hlt, ?_⟩
    cases windows.keys with
    | nil => rfl
    | cons k ks => exact if_pos hlt
  · refine .inr ⟨by omega, ?_⟩
    cases hentries : windows.entries with
    | nil =>
      have hzero : windows.size = 0 := by rw [InsertionMap.size, hentries]; rfl
      omega
    | cons e rest =>
      have hmem : e ∈ windows.entries := by rw [hentries]; exact List.mem_cons_self
      have hless := size_delete_head_lt hmem
      have hroom : (windows.delete e.1).size < maxWindows := by omega
      refine ⟨e, rfl, hroom, ?_⟩
      have hkeys : windows.keys = e.1 :: rest.map Prod.fst := by
        rw [InsertionMap.keys, hentries]
        rfl
      rw [hkeys, dropOldest, if_neg hlt]
      cases rest.map Prod.fst with
      | nil => rfl
      | cons k ks => exact if_pos hroom

/-- What `makeRoom` does to a map that is no fuller than it may be: it drops what is over an hour
old, or if there is nothing of the kind the window at the front. -/
theorem makeRoom_cases (current : ℤ) (hcap : 0 < maxWindows) (hsize : windows.size ≤ maxWindows) :
    (makeRoom maxWindows windows current).size < maxWindows ∧
      (makeRoom maxWindows windows current = windows ∨
        makeRoom maxWindows windows current = dropStale windows current ∨
        maxWindows ≤ (dropStale windows current).size ∧ ∃ e ∈ windows.entries.head?,
          makeRoom maxWindows windows current = windows.delete e.1) := by
  unfold makeRoom
  by_cases hlt : windows.size < maxWindows
  · rw [if_pos hlt]
    exact ⟨hlt, .inl rfl⟩
  · rw [if_neg hlt]
    have hle : (dropStale windows current).size ≤ windows.size := InsertionMap.size_retain_le ..
    rcases dropOldest_keys hcap (Nat.le_trans hle hsize) with ⟨hroom, heq⟩ |
      ⟨hfull, e, he, hroom, heq⟩
    · rw [heq]
      exact ⟨hroom, .inr (.inl rfl)⟩
    · have hsame : dropStale windows current = windows :=
        InsertionMap.retain_eq_self_of_size_le (by
          rw [← dropStale, hfull]
          exact hsize)
      rw [heq, hsame]
      rw [hsame] at he hroom hfull
      exact ⟨hroom, .inr (.inr ⟨Nat.le_of_eq hfull.symm, e, he, rfl⟩)⟩

/-- `makeRoom` changes no window. -/
theorem get_makeRoom (current : ℤ) (hcap : 0 < maxWindows) (hsize : windows.size ≤ maxWindows)
    (k : JsString) :
    (makeRoom maxWindows windows current).get k = windows.get k ∨
      (makeRoom maxWindows windows current).get k = none := by
  obtain ⟨-, heq | heq | ⟨-, e, -, heq⟩⟩ := makeRoom_cases current hcap hsize
  · rw [heq]
    exact .inl rfl
  · rw [heq]
    cases hk : (dropStale windows current).get k with
    | none => exact .inr rfl
    | some w => exact .inl (get_dropStale.mp hk).1.symm
  · rw [heq, InsertionMap.get_delete]
    by_cases hk : k = e.1
    · exact .inr (if_pos hk)
    · exact .inl (if_neg hk)

variable {s : Limiter} {past : List Hit} {h : Hit}

theorem pruneIfDue_windows (s : Limiter) (h : Hit) :
    (pruneIfDue s h).windows = s.windows ∨
      h.current - s.lastPrune > hourMs ∧
        (pruneIfDue s h).windows = dropStale s.windows h.again := by
  unfold pruneIfDue
  by_cases hdue : h.current - s.lastPrune > hourMs
  · rw [if_pos hdue]
    exact .inr ⟨hdue, rfl⟩
  · rw [if_neg hdue]
    exact .inl rfl

theorem size_pruneIfDue_le (s : Limiter) (h : Hit) :
    (pruneIfDue s h).windows.size ≤ s.windows.size := by
  rcases pruneIfDue_windows s h with heq | ⟨-, heq⟩
  · exact Nat.le_of_eq (congrArg InsertionMap.size heq)
  · rw [heq]
    exact InsertionMap.size_retain_le ..

theorem get_pruneIfDue (s : Limiter) (h : Hit) (k : JsString) :
    (pruneIfDue s h).windows.get k = s.windows.get k ∨
      (pruneIfDue s h).windows.get k = none := by
  rcases pruneIfDue_windows s h with heq | ⟨-, heq⟩
  · rw [heq]
    exact .inl rfl
  · rw [heq]
    cases hk : (dropStale s.windows h.again).get k with
    | none => exact .inr rfl
    | some w => exact .inl (get_dropStale.mp hk).1.symm

/-- The windows a hit writes to are those before it, but for dropped ones. -/
theorem get_roomFor (hcap : 0 < maxWindows) (hsize : s.windows.size ≤ maxWindows) (k : JsString) :
    (roomFor maxWindows (pruneIfDue s h).windows h).get k = s.windows.get k ∨
      (roomFor maxWindows (pruneIfDue s h).windows h).get k = none := by
  unfold roomFor
  have hheld := Nat.le_trans (size_pruneIfDue_le s h) hsize
  by_cases hkey : (pruneIfDue s h).windows.get h.key = none
  · rw [if_pos hkey]
    rcases get_makeRoom h.current hcap hheld k with hk | hk
    · rw [hk]
      exact get_pruneIfDue s h k
    · exact .inr hk
  · rw [if_neg hkey]
    exact get_pruneIfDue s h k

/-- Making room for a bucket does not change what is known of it. -/
theorem get_roomFor_key (hcap : 0 < maxWindows) (hsize : s.windows.size ≤ maxWindows) :
    (roomFor maxWindows (pruneIfDue s h).windows h).get h.key
      = (pruneIfDue s h).windows.get h.key := by
  unfold roomFor
  have hheld := Nat.le_trans (size_pruneIfDue_le s h) hsize
  by_cases hkey : (pruneIfDue s h).windows.get h.key = none
  · rw [if_pos hkey]
    rcases get_makeRoom h.current hcap hheld h.key with hk | hk
    · exact hk
    · rw [hk, hkey]
  · rw [if_neg hkey]

/-- The map is never fuller than it may be. -/
theorem size_hit_le (hcap : 0 < maxWindows) (hsize : s.windows.size ≤ maxWindows) (h : Hit) :
    (hit maxWindows s h).1.windows.size ≤ maxWindows := by
  have hheld := Nat.le_trans (size_pruneIfDue_le s h) hsize
  have hroom := get_roomFor_key (h := h) hcap hsize
  unfold hit
  dsimp only
  cases hkey : (pruneIfDue s h).windows.get h.key with
  | none =>
    rw [hkey] at hroom
    have hlt := (makeRoom_cases h.current hcap hheld).1
    rw [InsertionMap.size_set_of_none hroom, roomFor, if_pos hkey]
    omega
  | some w =>
    rw [hkey] at hroom
    rw [InsertionMap.size_set_of_some hroom, roomFor, hkey, if_neg (Option.some_ne_none w)]
    exact hheld

/-- A window over an hour old is over. -/
theorem elapsed_of_hour {k : JsString} {w : Window} (hhour : span k ≤ hourMs)
    (hold : ¬ current - w.windowStart ≤ hourMs) : Elapsed span k w current := by
  unfold Elapsed
  omega

/-- What an orderly hit drops has elapsed, or else may go because the map was full. -/
theorem elapsed_or_mayGo_of_dropped (hcap : 0 < maxWindows) (hsize : s.windows.size ≤ maxWindows)
    (hhour : ∀ k, span k ≤ hourMs) (horderly : Orderly span maxWindows s past h) {k : JsString}
    {w : Window} (hw : s.windows.get k = some w)
    (hnone : (roomFor maxWindows (pruneIfDue s h).windows h).get k = none) :
    Elapsed span k w h.current ∨
      maxWindows ≤ s.windows.size ∧ MayGo span past s.windows h.current k w := by
  have hle := size_pruneIfDue_le s h
  rcases get_pruneIfDue s h k with hheld | hgone
  · rw [hw] at hheld
    unfold roomFor at hnone
    by_cases hkey : (pruneIfDue s h).windows.get h.key = none
    · rw [if_pos hkey] at hnone
      obtain ⟨-, heq | heq | ⟨hfull, e, he, heq⟩⟩ :=
        makeRoom_cases h.current hcap (Nat.le_trans hle hsize)
      · rw [heq, hheld] at hnone
        exact absurd hnone (Option.some_ne_none w)
      · refine .inl (elapsed_of_hour (hhour k) fun hyoung => ?_)
        rw [heq, get_dropStale.mpr ⟨hheld, hyoung⟩] at hnone
        exact Option.some_ne_none w hnone
      · -- the map was full, so nothing was pruned, and the window at the front had to go
        have hstale : (dropStale (pruneIfDue s h).windows h.current).size
            ≤ (pruneIfDue s h).windows.size := InsertionMap.size_retain_le ..
        have hsame : (pruneIfDue s h).windows = s.windows := by
          rcases pruneIfDue_windows s h with hp | ⟨-, hp⟩
          · exact hp
          · rw [hp]
            refine InsertionMap.retain_eq_self_of_size_le ?_
            rw [← dropStale, ← hp]
            omega
        have hke : k = e.1 := by
          by_contra hne
          rw [heq, InsertionMap.get_delete, if_neg hne, hheld] at hnone
          exact Option.some_ne_none w hnone
        have hmem : (e.1, e.2) ∈ (pruneIfDue s h).windows.entries := List.mem_of_mem_head? he
        have hew : e.2 = w := by
          rw [hke] at hheld
          exact Option.some.inj ((InsertionMap.get_eq_some_iff.mpr hmem).symm.trans hheld)
        have hgo := horderly.full hkey hfull e he
        rw [hsame, hew, ← hke] at hgo
        exact .inr ⟨by omega, hgo⟩
    · rw [if_neg hkey, hheld] at hnone
      exact absurd hnone (Option.some_ne_none w)
  · rcases pruneIfDue_windows s h with hp | ⟨hdue, hp⟩
    · rw [hp, hw] at hgone
      exact absurd hgone (Option.some_ne_none w)
    · refine .inl (horderly.pruned hdue (k, w) (InsertionMap.get_eq_some_iff.mp hw) ?_)
      by_contra hyoung
      rw [hp, get_dropStale.mpr ⟨hw, Int.not_lt.mp hyoung⟩] at hgone
      exact Option.some_ne_none w hgone

/-! ## One hit of both counters -/

variable {c : JsString → Option Window}

/-- A window that is over counts like none. -/
theorem countHit_of_elapsed {limit : RouteRateLimit} {k : JsString} {w : Window}
    (hspan : limit.timeWindowMs ≤ span k) (h : Elapsed span k w current) :
    countHit (some w) limit current = countHit none limit current := by
  unfold Elapsed at h
  exact if_pos (by omega)

/-- The relation between the limiter and the plain counter: what the limiter has lost is over. -/
def Refines (span : JsString → ℕ) (current : ℤ) (s : Limiter) (c : JsString → Option Window) :
    Prop :=
  s.windows.AgreesUpTo (fun k w => Elapsed span k w current) c

theorem Refines.later {t : ℤ} (hagree : Refines span current s c) (hle : current ≤ t) :
    Refines span t s c :=
  InsertionMap.AgreesUpTo.mono hagree fun k w hw => by
    unfold Elapsed at hw ⊢
    omega

/-- The map is not full of live windows while fewer buckets are live than it may hold. -/
theorem exists_elapsed_of_full (hagree : Refines span current s (plainAfter past))
    (hpast : ∀ k, plainAfter past k ≠ none → k ∈ past.map Hit.key)
    (hlive : (liveKeys span past current).length < maxWindows)
    (hfull : maxWindows ≤ s.windows.size) :
    ∃ e ∈ s.windows.entries, Elapsed span e.1 e.2 current := by
  by_contra hnone
  have hall : ∀ e ∈ s.windows.entries, ¬ Elapsed span e.1 e.2 current :=
    fun e he hover => hnone ⟨e, he, hover⟩
  have hsub : s.windows.keys ⊆ liveKeys span past current := by
    intro k hk
    obtain ⟨e, he, rfl⟩ := List.mem_map.mp hk
    have hplain := hagree.eq_some (InsertionMap.get_eq_some_iff.mpr he)
    refine List.mem_filter.mpr ⟨List.mem_dedup.mpr (hpast e.1 ?_), ?_⟩
    · rw [hplain]
      exact Option.some_ne_none e.2
    · rw [hplain, Option.any_some, decide_eq_false (hall e he)]
      rfl
  have hlength := (s.windows.nodup.subperm hsub).length_le
  rw [← InsertionMap.keys, InsertionMap.length_keys] at hlength
  omega

/-- A hit that drops only what is over takes the decision of the plain counter and keeps the
relation. -/
theorem Refines.hit (hagree : Refines span h.current s c) (hcap : 0 < maxWindows)
    (hsize : s.windows.size ≤ maxWindows) (hspan : h.limit.timeWindowMs ≤ span h.key)
    (hdrop : ∀ k w, s.windows.get k = some w →
      (roomFor maxWindows (pruneIfDue s h).windows h).get k = none → Elapsed span k w h.current) :
    (hit maxWindows s h).2 = (plainHit c h).2 ∧
      Refines span h.current (hit maxWindows s h).1 (plainHit c h).1 := by
  have hroom : (roomFor maxWindows (pruneIfDue s h).windows h).AgreesUpTo
      (fun k w => Elapsed span k w h.current) c := by
    refine InsertionMap.AgreesUpTo.of_lost hagree fun k => ?_
    exact (get_roomFor hcap hsize k).imp_right fun hnone => ⟨hnone, fun w hw => hdrop k w hw hnone⟩
  have hcount : countHit ((pruneIfDue s h).windows.get h.key) h.limit h.current
      = countHit (c h.key) h.limit h.current := by
    rw [← get_roomFor_key hcap hsize]
    rcases hroom h.key with hkey | ⟨hkey, w, hw, hover⟩
    · rw [hkey]
    · rw [hkey, hw, countHit_of_elapsed hspan hover]
  unfold Web.hit plainHit
  dsimp only
  rw [hcount]
  exact ⟨rfl, hroom.set h.key _⟩

/-- While fewer buckets are live than the map may hold, an orderly hit keeps the relation. -/
theorem Refines.hit_of_live (hagree : Refines span h.current s (plainAfter past))
    (hcap : 0 < maxWindows) (hsize : s.windows.size ≤ maxWindows)
    (hspan : h.limit.timeWindowMs ≤ span h.key) (hhour : ∀ k, span k ≤ hourMs)
    (horderly : Orderly span maxWindows s past h)
    (hpast : ∀ k, plainAfter past k ≠ none → k ∈ past.map Hit.key)
    (hlive : (liveKeys span past h.current).length < maxWindows) :
    (Web.hit maxWindows s h).2 = (plainHit (plainAfter past) h).2 ∧
      Refines span h.current (Web.hit maxWindows s h).1 (plainHit (plainAfter past) h).1 := by
  refine hagree.hit hcap hsize hspan fun k w hw hnone => ?_
  rcases elapsed_or_mayGo_of_dropped hcap hsize hhour horderly hw hnone with
    hover | ⟨hfull, hover | ⟨hall, -⟩⟩
  · exact hover
  · exact hover
  · obtain ⟨e, he, hover⟩ := exists_elapsed_of_full hagree hpast hlive hfull
    exact absurd hover (hall e he)

/-! ## A run of hits -/

theorem limiterAfter_snoc (start : ℤ) (past : List Hit) (h : Hit) :
    limiterAfter maxWindows start (past ++ [h])
      = (hit maxWindows (limiterAfter maxWindows start past) h).1 :=
  List.foldl_concat ..

theorem plainAfter_snoc (past : List Hit) (h : Hit) :
    plainAfter (past ++ [h]) = (plainHit (plainAfter past) h).1 :=
  List.foldl_concat ..

theorem mem_of_plainAfter {k : JsString} :
    ∀ past : List Hit, plainAfter past k ≠ none → k ∈ past.map Hit.key := by
  intro past
  induction past using List.reverseRecOn with
  | nil => exact fun h => absurd rfl h
  | append_singleton past h ih =>
    intro hk
    rw [plainAfter_snoc] at hk
    rw [List.map_append, List.mem_append]
    by_cases hkey : k = h.key
    · exact .inr (List.mem_singleton.mpr hkey)
    · exact .inl (ih (by simpa only [plainHit, if_neg hkey] using hk))

/-- The clock of a later hit does not go back. -/
theorem current_le_of_readings {start : ℤ} {hits : List Hit}
    (hclock : (readings start hits).Pairwise (· ≤ ·)) (hpre : past ++ [h] <+: hits) :
    ∀ h' ∈ past, h'.current ≤ h.current := by
  intro h' hh'
  obtain ⟨rest, rfl⟩ := hpre
  have hflat := (List.pairwise_cons.mp hclock).2
  rw [List.append_assoc, List.flatMap_append, List.pairwise_append] at hflat
  refine hflat.2.2 h'.current ?_ h.current ?_
  · exact List.mem_flatMap.mpr ⟨h', hh', List.mem_cons_self⟩
  · exact List.mem_flatMap.mpr ⟨h, List.mem_cons_self, List.mem_cons_self⟩

theorem size_limiterAfter_le (hcap : 0 < maxWindows) (start : ℤ) (past : List Hit) :
    (limiterAfter maxWindows start past).windows.size ≤ maxWindows := by
  induction past using List.reverseRecOn with
  | nil => exact Nat.zero_le _
  | append_singleton past h ih =>
    rw [limiterAfter_snoc]
    exact size_hit_le hcap ih h

section Run

variable {start : ℤ} {hits : List Hit}

theorem refines_limiterAfter (hcap : 0 < maxWindows)
    (hclock : (readings start hits).Pairwise (· ≤ ·))
    (hspan : ∀ h ∈ hits, h.limit.timeWindowMs ≤ span h.key) (hhour : ∀ k, span k ≤ hourMs)
    (horderly : ∀ past h, past ++ [h] <+: hits →
      Orderly span maxWindows (limiterAfter maxWindows start past) past h)
    (hlive : ∀ past h, past ++ [h] <+: hits →
      (liveKeys span past h.current).length < maxWindows) (past : List Hit) :
    past <+: hits → ∀ t, (∀ h ∈ past, h.current ≤ t) →
      Refines span t (limiterAfter maxWindows start past) (plainAfter past) := by
  induction past using List.reverseRecOn with
  | nil => exact fun _ _ _ => InsertionMap.AgreesUpTo.empty
  | append_singleton past h ih =>
    intro hpre t ht
    have hbefore := ih ((List.prefix_append past [h]).trans hpre) h.current
      (current_le_of_readings hclock hpre)
    have hmem : h ∈ hits := hpre.subset (List.mem_append_right past (List.mem_singleton_self h))
    rw [limiterAfter_snoc, plainAfter_snoc]
    exact (hbefore.hit_of_live hcap (size_limiterAfter_le hcap start past) (hspan h hmem) hhour
      (horderly past h hpre) (fun _ => mem_of_plainAfter past) (hlive past h hpre)).2.later
      (ht h (List.mem_append_right past (List.mem_singleton_self h)))

/-- In a run of orderly hits the limiter takes the decisions of the counter that keeps every window,
as long as fewer buckets are live than the map may hold; it never holds more windows than it may;
and a window it drops is over, or else none is and its bucket was least recently hit. -/
theorem limiter_refines (hcap : 0 < maxWindows) (hclock : (readings start hits).Pairwise (· ≤ ·))
    (hspan : ∀ h ∈ hits, h.limit.timeWindowMs ≤ span h.key) (hhour : ∀ k, span k ≤ hourMs)
    (horderly : ∀ past h, past ++ [h] <+: hits →
      Orderly span maxWindows (limiterAfter maxWindows start past) past h) :
    ((∀ past h, past ++ [h] <+: hits → (liveKeys span past h.current).length < maxWindows) →
      ∀ past h, past ++ [h] <+: hits →
        (hit maxWindows (limiterAfter maxWindows start past) h).2
          = (plainHit (plainAfter past) h).2) ∧
    (∀ past, past <+: hits → (limiterAfter maxWindows start past).windows.size ≤ maxWindows) ∧
    (∀ past h, past ++ [h] <+: hits → ∀ k w,
      (limiterAfter maxWindows start past).windows.get k = some w →
      (limiterAfter maxWindows start (past ++ [h])).windows.get k = none →
      MayGo span past (limiterAfter maxWindows start past).windows h.current k w) := by
  refine ⟨fun hlive past h hpre => ?_, fun past _ => size_limiterAfter_le hcap start past, ?_⟩
  · have hbefore := refines_limiterAfter hcap hclock hspan hhour horderly hlive past
      ((List.prefix_append past [h]).trans hpre) h.current (current_le_of_readings hclock hpre)
    have hmem : h ∈ hits := hpre.subset (List.mem_append_right past (List.mem_singleton_self h))
    exact (hbefore.hit_of_live hcap (size_limiterAfter_le hcap start past) (hspan h hmem) hhour
      (horderly past h hpre) (fun _ => mem_of_plainAfter past) (hlive past h hpre)).1
  · intro past h hpre k w hw hnone
    have hroom : (roomFor maxWindows (pruneIfDue (limiterAfter maxWindows start past) h).windows
        h).get k = none := by
      rw [limiterAfter_snoc, hit] at hnone
      dsimp only at hnone
      rw [InsertionMap.get_set] at hnone
      by_cases hkey : k = h.key
      · rw [if_pos hkey] at hnone
        exact absurd hnone (Option.some_ne_none _)
      · rwa [if_neg hkey] at hnone
    rcases elapsed_or_mayGo_of_dropped hcap (size_limiterAfter_le hcap start past) hhour
      (horderly past h hpre) hw hroom with hover | ⟨-, hgo⟩
    · exact .inl hover
    · exact hgo

end Run

end Span

/-- The hits of a run, each after those before it. -/
theorem forall_hits {P : List Hit → Hit → Prop} {hits : List Hit}
    (hall : ∀ i : Fin hits.length, P (hits.take i) hits[i]) :
    ∀ past h, past ++ [h] <+: hits → P past h := by
  intro past h hpre
  obtain ⟨rest, rfl⟩ := hpre
  have hat := hall ⟨past.length, by simp⟩
  simpa using hat

/-- Four clients of a map of three.  The minutes of the first two are over when the last one comes,
and the first one makes room. -/
def quietRun : List Hit :=
  [⟨js "default|198.51.100.1", ⟨1, 60000⟩, 0, 0⟩,
   ⟨js "default|198.51.100.2", ⟨1, 60000⟩, 0, 0⟩,
   ⟨js "default|198.51.100.3", ⟨1, 60000⟩, 59000, 59000⟩,
   ⟨js "default|198.51.100.4", ⟨1, 60000⟩, 60000, 60000⟩,
   ⟨js "default|198.51.100.3", ⟨1, 60000⟩, 60001, 60001⟩]

theorem quietRun_orderly (i : Fin 5) :
    Orderly (fun _ => 60000) 3 (limiterAfter 3 0 (quietRun.take i)) (quietRun.take i)
      quietRun[i] := by
  fin_cases i
  · exact ⟨fun hdue => absurd hdue (by decide), fun _ hfull => absurd hfull (by decide)⟩
  · exact ⟨fun hdue => absurd hdue (by decide), fun _ hfull => absurd hfull (by decide)⟩
  · exact ⟨fun hdue => absurd hdue (by decide), fun _ hfull => absurd hfull (by decide)⟩
  · exact ⟨fun hdue => absurd hdue (by decide), fun _ _ e he =>
      .inl (Option.some.inj he ▸ by decide)⟩
  · exact ⟨fun hdue => absurd hdue (by decide), fun hkey => absurd hkey (by decide)⟩

theorem limiter_refines_quietRun :
    (hit 3 (limiterAfter 3 0 (quietRun.take 4)) quietRun[4]).2.allowed = false ∧
      (hit 3 (limiterAfter 3 0 (quietRun.take 4)) quietRun[4]).2
        = (plainHit (plainAfter (quietRun.take 4)) quietRun[4]).2 ∧
      (limiterAfter 3 0 quietRun).windows.size ≤ 3 ∧
      MayGo (fun _ => 60000) (quietRun.take 3) (limiterAfter 3 0 (quietRun.take 3)).windows 60000
        (js "default|198.51.100.1") ⟨1, 0⟩ := by
  have hrun := @limiter_refines (fun _ => 60000) 3 0 quietRun (by decide) (by decide) (by decide)
    (fun _ => by decide) (forall_hits quietRun_orderly)
  have hlive : ∀ i : Fin quietRun.length,
      (liveKeys (fun _ => 60000) (quietRun.take i) quietRun[i].current).length < 3 := by
    decide
  refine ⟨by decide, ?_, hrun.2.1 quietRun (List.prefix_refl _), ?_⟩
  · exact hrun.1 (forall_hits hlive) _ _ ⟨[], rfl⟩
  · exact hrun.2.2 (quietRun.take 3) quietRun[3] ⟨[quietRun[4]], rfl⟩ _ _ (by decide) (by decide)

/-! ## A spent budget that is refunded -/

/-- A budget of one hit a minute. -/
def perMinute : RouteRateLimit := ⟨1, 60000⟩

/-- Three clients fill the map of three.  The first one comes back when its minute is over, stays at
the front of the map all the same, and is dropped for a fourth client. -/
def refundRun : List Hit :=
  [⟨js "default|198.51.100.1", perMinute, 0, 0⟩,
   ⟨js "default|198.51.100.2", perMinute, 0, 0⟩,
   ⟨js "default|198.51.100.3", perMinute, 0, 0⟩,
   ⟨js "default|198.51.100.1", perMinute, 60000, 60000⟩,
   ⟨js "default|198.51.100.4", perMinute, 60001, 60001⟩]

/-- The hit after it, which is over the budget. -/
def refundedHit : Hit := ⟨js "default|198.51.100.1", perMinute, 60002, 60002⟩

/-- Never more than two of three possible buckets are live, and still the limiter lets a hit pass
that is over the budget: it has dropped a window that was counting, and was hit last, in place of
one that was over. -/
theorem decision_differs :
    (readings 0 (refundRun ++ [refundedHit])).Pairwise (· ≤ ·) ∧
    (∀ n (hn : n < (refundRun ++ [refundedHit]).length),
      (liveKeys (fun _ => 60000) ((refundRun ++ [refundedHit]).take n)
        (refundRun ++ [refundedHit])[n].current).length < 3) ∧
    (hit 3 (limiterAfter 3 0 refundRun) refundedHit).2.allowed = true ∧
    (plainHit (plainAfter refundRun) refundedHit).2.allowed = false ∧
    (limiterAfter 3 0 (refundRun.take 4)).windows.entries =
      [(js "default|198.51.100.1", ⟨1, 60000⟩), (js "default|198.51.100.2", ⟨1, 0⟩),
        (js "default|198.51.100.3", ⟨1, 0⟩)] ∧
    (limiterAfter 3 0 refundRun).windows.get (js "default|198.51.100.1") = none ∧
    ¬ Elapsed (fun _ => 60000) (js "default|198.51.100.1") ⟨1, 60000⟩ 60001 ∧
    Elapsed (fun _ => 60000) (js "default|198.51.100.2") ⟨1, 0⟩ 60001 := by
  decide +kernel

end Web
end Xcs
