import Xcs.Core.ClaimValues
import Xcs.Indexer.SourceResponse
import Xcs.Run.Ranges

/-!
# The history a source holds

`server_info` reports the ledgers a source holds as a text of ranges, in any order and with
overlaps.  `parseCompleteLedgers` merges them, and `assertSourceCoversProfile` looks for one merged
range from the activation ledger to the tip.  That is enough because ranges that touch are merged.

* `WritesRanges` says what a text of ranges is and which ranges it writes;
  `parseCompleteLedgers_eq_ok` that these are the texts that are accepted.
* `completeLedgers_coverage`: the ranges returned are in order, apart, and cover what is written;
  and the assertion passes exactly on a source of the network that has every ledger from activation
  to a tip that is not before it.
-/

namespace Xcs
namespace Indexer

open Js Json Core

namespace ProfilePreflight

/-! ## The functions -/

/-- `SourceServerStatus` -/
structure SourceServerStatus where
  networkId : ℕ
  validatedLedgerIndex : ℕ
  validatedLedgerHash : JsString
  completeLedgerRanges : List LedgerRange

/-- `record` -/
def record (value : JsValue) (label : JsString) : Except Thrown Members :=
  readRecord value label

/-- `uint32` -/
def uint32 (value : JsValue) (label : JsString) : Except Thrown ℕ :=
  readUint32 value label

/-- `hash` -/
def hash (value : JsValue) (label : JsString) : Except Thrown JsString :=
  readHash value label

/-- The groups of `/^(\d+)(?:-(\d+))?$/`. -/
def matchRange (s : JsString) : Option (JsString × Option JsString) :=
  if (s.takeWhile isDigit).isEmpty then none
  else
    match s.dropWhile isDigit with
    | [] => some (s.takeWhile isDigit, none)
    | u :: rest =>
        if u == 0x2d && !rest.isEmpty && rest.all isDigit then
          some (s.takeWhile isDigit, some rest)
        else none

/-- `Number(digits)` -/
def numberOf (digits : JsString) : JsValue :=
  .num (JsNumber.ofNat (bigNat digits))

/-- The function that `parseCompleteLedgers` maps over the parts. -/
def parseRange (part : JsString) : Except Thrown LedgerRange :=
  match matchRange (trim part) with
  | none => responseInvalid (js "server_info.complete_ledgers is malformed")
  | some (first, second) => do
      let lower ← uint32 (numberOf first) (js "complete_ledgers minimum")
      let upper ← uint32 (numberOf (second.getD first)) (js "complete_ledgers maximum")
      ensure (decide (lower ≤ upper)) (.source .responseInvalid
        (js "server_info.complete_ledgers contains a reversed range"))
      pure ⟨lower, upper⟩

/-- `left.min - right.min || left.max - right.max` is not positive. -/
def rangeLe (left right : LedgerRange) : Prop :=
  left.min < right.min ∨ left.min = right.min ∧ left.max ≤ right.max

instance : DecidableRel rangeLe := fun _ _ => inferInstanceAs (Decidable (_ ∨ _))

/-- `ranges.sort(...)` -/
def sortRanges (ranges : List LedgerRange) : List LedgerRange :=
  ranges.insertionSort rangeLe

/-- One turn of the loop that merges the ranges. -/
def mergeRange (merged : List LedgerRange) (range : LedgerRange) : List LedgerRange :=
  match merged.getLast? with
  | none => merged ++ [range]
  | some previous =>
      if range.min > previous.max + 1 then merged ++ [range]
      else merged.dropLast ++ [⟨previous.min, max previous.max range.max⟩]

/-- `sourceFailure('SOURCE_HISTORY_INCOMPLETE', message)` -/
def historyIncomplete {α : Type} (message : JsString) : Except Thrown α :=
  .error (.source .historyIncomplete message)

/-- `parseCompleteLedgers` -/
def parseCompleteLedgers (value : JsValue) : Except Thrown (List LedgerRange) :=
  match value with
  | .str text =>
      if text.isEmpty || text == js "empty" then
        historyIncomplete (js "XRPL source does not report any complete ledger history")
      else do
        let ranges ← (text.splitOn 0x2c).mapM parseRange
        pure ((sortRanges ranges).foldl mergeRange [])
  | _ => historyIncomplete (js "XRPL source does not report any complete ledger history")

/-- `normalizeServerInfo` -/
def normalizeServerInfo (value : JsValue) : Except Thrown SourceServerStatus := do
  let result ← record value (js "server_info result")
  let info ← record ((JsValue.obj result).get (js "info")) (js "server_info.info")
  let validated ← record ((JsValue.obj info).get (js "validated_ledger"))
    (js "server_info.info.validated_ledger")
  let networkId ← uint32 ((JsValue.obj info).get (js "network_id"))
    (js "server_info.info.network_id")
  let validatedLedgerIndex ← uint32 ((JsValue.obj validated).get (js "seq"))
    (js "validated_ledger.seq")
  let validatedLedgerHash ← hash ((JsValue.obj validated).get (js "hash"))
    (js "validated_ledger.hash")
  let completeLedgerRanges ← parseCompleteLedgers ((JsValue.obj info).get (js "complete_ledgers"))
  pure { networkId, validatedLedgerIndex, validatedLedgerHash, completeLedgerRanges }

/-- `assertSourceCoversProfile` -/
def assertSourceCoversProfile (status : SourceServerStatus) (profile : NetworkProfile) :
    Except Thrown Unit := do
  ensure (status.networkId == profile.networkId) (.source .networkMismatch
    (js "XRPL source network " ++ natToString status.networkId
      ++ js " does not match profile network " ++ natToString profile.networkId))
  ensure (!decide (status.validatedLedgerIndex < profile.activationLedgerIndex))
    (.source .historyIncomplete (js "XRPL source tip precedes the XCS activation ledger"))
  ensure (status.completeLedgerRanges.find? fun range =>
      decide (range.min ≤ profile.activationLedgerIndex)
        && decide (range.max ≥ status.validatedLedgerIndex)).isSome
    (.source .historyIncomplete
      (js "XRPL source does not have a contiguous validated history from activation to tip"))

/-! ## What a text of ranges is -/

/-- A part of the text writes a range: one index, or two with a hyphen between them, and white space
around it. -/
inductive WritesRange : JsString → LedgerRange → Prop
  | single {before digits behind : JsString} : before.all isSpace = true →
      behind.all isSpace = true → digits ≠ [] → digits.all isDigit = true →
      bigNat digits ≤ 0xffffffff →
      WritesRange (before ++ digits ++ behind) ⟨bigNat digits, bigNat digits⟩
  | pair {before first last behind : JsString} : before.all isSpace = true →
      behind.all isSpace = true → first ≠ [] → first.all isDigit = true → last ≠ [] →
      last.all isDigit = true → bigNat first ≤ bigNat last → bigNat last ≤ 0xffffffff →
      WritesRange (before ++ (first ++ 0x2d :: last) ++ behind) ⟨bigNat first, bigNat last⟩

/-- A text writes ranges: its parts do, with commas between them. -/
def WritesRanges (text : JsString) (written : List LedgerRange) : Prop :=
  ∃ parts : List JsString, parts ≠ [] ∧ text = [0x2c].intercalate parts ∧
    List.Forall₂ WritesRange parts written

theorem matchRange_single {digits : JsString} (hne : digits ≠ [])
    (hall : digits.all isDigit = true) : matchRange digits = some (digits, none) := by
  have htake : digits.takeWhile isDigit = digits :=
    List.takeWhile_eq_self_iff.mpr (List.all_eq_true.mp hall)
  have hdrop : digits.dropWhile isDigit = [] :=
    List.dropWhile_eq_nil_iff.mpr (List.all_eq_true.mp hall)
  rw [matchRange, htake, hdrop, if_neg (by rwa [List.isEmpty_iff])]

theorem matchRange_pair {first last : JsString} (hfirst : first ≠ [])
    (hall : first.all isDigit = true) (hlast : last ≠ []) (hall' : last.all isDigit = true) :
    matchRange (first ++ 0x2d :: last) = some (first, some last) := by
  have htake : (first ++ 0x2d :: last).takeWhile isDigit = first := by
    rw [List.takeWhile_append_of_pos (List.all_eq_true.mp hall),
      List.takeWhile_cons_of_neg (by decide), List.append_nil]
  have hdrop : (first ++ 0x2d :: last).dropWhile isDigit = 0x2d :: last := by
    rw [List.dropWhile_append_of_pos (List.all_eq_true.mp hall),
      List.dropWhile_cons_of_neg (by decide)]
  rw [matchRange, htake, hdrop, if_neg (by rwa [List.isEmpty_iff])]
  have hempty : last.isEmpty = false := by
    rwa [List.isEmpty_eq_false_iff]
  simp only [beq_self_eq_true, hempty, hall', Bool.not_false, Bool.and_self, if_true]

theorem of_matchRange {s first : JsString} {second : Option JsString}
    (h : matchRange s = some (first, second)) :
    first ≠ [] ∧ first.all isDigit = true ∧
      (second = none ∧ s = first ∨ ∃ last, second = some last ∧ last ≠ [] ∧
        last.all isDigit = true ∧ s = first ++ 0x2d :: last) := by
  have hsplit : s.takeWhile isDigit ++ s.dropWhile isDigit = s := List.takeWhile_append_dropWhile
  have hdigits : (s.takeWhile isDigit).all isDigit = true := List.all_takeWhile
  rw [matchRange] at h
  by_cases hempty : (s.takeWhile isDigit).isEmpty = true
  · rw [if_pos hempty] at h
    cases h
  · rw [if_neg hempty] at h
    have hne : s.takeWhile isDigit ≠ [] := fun hnil => hempty (by rw [hnil]; rfl)
    cases hrest : s.dropWhile isDigit with
    | nil =>
      rw [hrest] at h hsplit
      obtain ⟨rfl, rfl⟩ := Prod.mk.inj (Option.some.inj h)
      exact ⟨hne, hdigits, .inl ⟨rfl, hsplit.symm.trans (List.append_nil _)⟩⟩
    | cons u rest =>
      rw [hrest] at h hsplit
      dsimp only at h
      by_cases hpair : (u == 0x2d && !rest.isEmpty && rest.all isDigit) = true
      · rw [if_pos hpair] at h
        obtain ⟨rfl, rfl⟩ := Prod.mk.inj (Option.some.inj h)
        simp only [Bool.and_eq_true, beq_iff_eq, Bool.not_eq_true', List.isEmpty_eq_false_iff]
          at hpair
        obtain ⟨⟨rfl, hlast⟩, hall⟩ := hpair
        exact ⟨hne, hdigits, .inr ⟨rest, rfl, hlast, hall, hsplit.symm⟩⟩
      · rw [if_neg hpair] at h
        cases h

/-- A run of digits is the uint32 it denotes, if it is one. -/
theorem uint32_numberOf {digits label : JsString} {n : ℕ} :
    uint32 (numberOf digits) label = .ok n ↔ bigNat digits = n ∧ n ≤ 0xffffffff := by
  rw [uint32, readUint32_eq_ok, numberOf]
  constructor
  · intro h
    have hvalue := JsNumber.eq_of_toUint32?_ofRat (n := n) (z := bigNat digits)
      (by exact_mod_cast h)
    refine ⟨by exact_mod_cast hvalue, ?_⟩
    exact of_decide_eq_true (Option.filter_eq_some_iff.mp h).2
  · rintro ⟨rfl, hle⟩
    have hnat : (JsNumber.ofNat (bigNat digits)).toNat? = some (bigNat digits) :=
      JsNumber.toNat?_ofNat (by omega)
    rw [Indexer.uint32]
    show (JsNumber.ofNat (bigNat digits)).toUint32? = _
    rw [JsNumber.toUint32?, hnat, Option.filter_some, if_pos (by simpa using hle)]

/-- A text of digits begins and ends visibly. -/
theorem isSpace_of_mem_digits {digits : JsString} (hall : digits.all isDigit = true) {u : CodeUnit}
    (hu : u ∈ digits) : isSpace u = false :=
  isSpace_of_isDigit (List.all_eq_true.mp hall u hu)

theorem parseRange_of_writesRange {part : JsString} {range : LedgerRange}
    (h : WritesRange part range) : parseRange part = .ok range ∧ range.min ≤ range.max := by
  cases h with
  | single hbefore hbehind hne hall hbound =>
    rename_i before digits behind
    have htrim : trim (before ++ digits ++ behind) = digits :=
      trim_append hbefore hbehind hne
        (fun u hu => isSpace_of_mem_digits hall (List.mem_of_mem_head? hu))
        (fun u hu => isSpace_of_mem_digits hall (List.mem_of_mem_getLast? hu))
    have hvalue : ∀ label, uint32 (numberOf digits) label = .ok (bigNat digits) :=
      fun _ => uint32_numberOf.mpr ⟨rfl, hbound⟩
    refine ⟨?_, Nat.le_refl _⟩
    simp only [parseRange, htrim, matchRange_single hne hall, Option.getD_none, hvalue, bind_eq_ok,
      ensure_eq_ok, exists_const, pure_eq_ok', Except.ok.injEq, decide_eq_true_eq,
      exists_eq_left', le_refl, true_and]
  | pair hbefore hbehind hfirst hall hlast hall' hle hbound =>
    rename_i before first last behind
    have htrim : trim (before ++ (first ++ 0x2d :: last) ++ behind) = first ++ 0x2d :: last := by
      refine trim_append hbefore hbehind (by simp) (fun u hu => ?_) (fun u hu => ?_)
      · rw [List.head?_append_of_ne_nil first hfirst] at hu
        exact isSpace_of_mem_digits hall (List.mem_of_mem_head? hu)
      · rw [List.getLast?_append_of_ne_nil first (List.cons_ne_nil _ _),
          List.getLast?_cons_of_ne_nil hlast] at hu
        exact isSpace_of_mem_digits hall' (List.mem_of_mem_getLast? hu)
    have hlower : ∀ label, uint32 (numberOf first) label = .ok (bigNat first) :=
      fun _ => uint32_numberOf.mpr ⟨rfl, by omega⟩
    have hupper : ∀ label, uint32 (numberOf last) label = .ok (bigNat last) :=
      fun _ => uint32_numberOf.mpr ⟨rfl, hbound⟩
    refine ⟨?_, hle⟩
    simp only [parseRange, htrim, matchRange_pair hfirst hall hlast hall', Option.getD_some, hlower,
      hupper, bind_eq_ok, ensure_eq_ok, exists_const, pure_eq_ok', Except.ok.injEq,
      decide_eq_true_eq, exists_eq_left', hle, true_and]

theorem writesRange_of_parseRange {part : JsString} {range : LedgerRange}
    (h : parseRange part = .ok range) : WritesRange part range := by
  obtain ⟨before, behind, hpart, hbefore, hbehind⟩ := exists_append_trim part
  rw [parseRange] at h
  cases hmatch : matchRange (trim part) with
  | none =>
    rw [hmatch] at h
    exact absurd h responseInvalid_ne_ok
  | some groups =>
    obtain ⟨first, second⟩ := groups
    rw [hmatch] at h
    simp only [bind_eq_ok, ensure_eq_ok, exists_const, pure_eq_ok', uint32_numberOf,
      decide_eq_true_eq] at h
    obtain ⟨lower, ⟨rfl, -⟩, upper, ⟨rfl, hbound⟩, hle, rfl⟩ := h
    rw [hpart]
    obtain ⟨hfirst, hall, ⟨rfl, htrim⟩ | ⟨last, rfl, hlast, hall', htrim⟩⟩ := of_matchRange hmatch
    · rw [htrim]
      exact .single hbefore hbehind hfirst hall hbound
    · rw [htrim]
      exact .pair hbefore hbehind hfirst hall hlast hall' hle hbound

/-- A part is accepted if and only if it writes a range, which is what is made of it. -/
theorem parseRange_eq_ok {part : JsString} {range : LedgerRange} :
    parseRange part = .ok range ↔ WritesRange part range :=
  ⟨writesRange_of_parseRange, fun h => (parseRange_of_writesRange h).1⟩

/-- A part of a text of ranges has no comma in it. -/
theorem WritesRange.comma_notMem {part : JsString} {range : LedgerRange}
    (h : WritesRange part range) : 0x2c ∉ part := by
  have hspace : ∀ {s : JsString}, s.all isSpace = true → (0x2c : CodeUnit) ∉ s :=
    fun hall hmem => absurd (List.all_eq_true.mp hall _ hmem) (by decide)
  have hdigit : ∀ {s : JsString}, s.all isDigit = true → (0x2c : CodeUnit) ∉ s :=
    fun hall hmem => absurd (List.all_eq_true.mp hall _ hmem) (by decide)
  cases h with
  | single hbefore hbehind _ hall _ =>
    simp only [List.mem_append, not_or]
    exact ⟨⟨hspace hbefore, hdigit hall⟩, hspace hbehind⟩
  | pair hbefore hbehind _ hall _ hall' _ _ =>
    simp only [List.mem_append, List.mem_cons, not_or]
    exact ⟨⟨hspace hbefore, hdigit hall, by decide, hdigit hall'⟩, hspace hbehind⟩

theorem WritesRanges.splitOn {text : JsString} {written : List LedgerRange}
    (h : WritesRanges text written) :
    List.Forall₂ WritesRange (text.splitOn 0x2c) written := by
  obtain ⟨parts, hne, rfl, hall⟩ := h
  have hcomma : ∀ part ∈ parts, (0x2c : CodeUnit) ∉ part := by
    intro part hpart
    obtain ⟨i, hi, rfl⟩ := List.getElem_of_mem hpart
    exact (List.forall₂_iff_get.mp hall).2 i hi (hall.length_eq ▸ hi) |>.comma_notMem
  rwa [List.splitOn_intercalate 0x2c hcomma hne]

theorem writesRanges_of_splitOn {text : JsString} {written : List LedgerRange}
    (h : List.Forall₂ WritesRange (text.splitOn 0x2c) written) : WritesRanges text written :=
  ⟨text.splitOn 0x2c, List.splitOn_ne_nil 0x2c text, (List.intercalate_splitOn 0x2c).symm, h⟩

/-- No text that is one part and no range is a text of ranges. -/
theorem not_writesRanges_of_splitOn {text part : JsString} (hsplit : text.splitOn 0x2c = [part])
    (hpart : ∀ range, parseRange part ≠ .ok range) (written : List LedgerRange) :
    ¬ WritesRanges text written := by
  intro h
  have hall := h.splitOn
  rw [hsplit] at hall
  cases hall with
  | cons hfirst _ => exact hpart _ (parseRange_eq_ok.mpr hfirst)

theorem WritesRanges.isReported {text : JsString} {written : List LedgerRange}
    (h : WritesRanges text written) : (text.isEmpty || text == js "empty") = false := by
  have hpart : ∀ part : JsString, matchRange (trim part) = none →
      ∀ range, parseRange part ≠ .ok range := by
    intro part hnone range hok
    rw [parseRange, hnone] at hok
    exact responseInvalid_ne_ok hok
  rw [Bool.or_eq_false_iff, List.isEmpty_eq_false_iff, beq_eq_false_iff_ne]
  constructor
  · rintro rfl
    exact not_writesRanges_of_splitOn rfl (hpart [] (by decide)) written h
  · rintro rfl
    exact not_writesRanges_of_splitOn (by decide) (hpart (js "empty") (by decide)) written h

/-- What is accepted are the texts of ranges, and what is returned are the ranges they write, merged
in their order. -/
theorem parseCompleteLedgers_eq_ok {value : JsValue} {ranges : List LedgerRange} :
    parseCompleteLedgers value = .ok ranges ↔ ∃ text written, value = .str text ∧
      WritesRanges text written ∧ ranges = (sortRanges written).foldl mergeRange [] := by
  constructor
  · intro h
    cases value with
    | str text =>
      rw [parseCompleteLedgers] at h
      by_cases hreported : (text.isEmpty || text == js "empty") = true
      · rw [if_pos hreported] at h
        cases h
      · rw [if_neg hreported] at h
        simp only [bind_eq_ok, mapM_eq_ok, parseRange_eq_ok, pure_eq_ok'] at h
        obtain ⟨written, hall, rfl⟩ := h
        exact ⟨text, written, rfl, writesRanges_of_splitOn hall, rfl⟩
    | _ => cases h
  · rintro ⟨text, written, rfl, hwrites, rfl⟩
    rw [parseCompleteLedgers, if_neg (by rw [hwrites.isReported]; exact Bool.false_ne_true)]
    simp only [bind_eq_ok, mapM_eq_ok, parseRange_eq_ok, pure_eq_ok']
    exact ⟨written, hwrites.splitOn, rfl⟩

/-! ## Merging -/

instance : Std.Total rangeLe := ⟨fun a b => by unfold rangeLe; omega⟩

instance : IsTrans LedgerRange rangeLe := ⟨fun a b c hab hbc => by unfold rangeLe at *; omega⟩

/-- One turn of the loop: the next range does not begin before those that were read. -/
theorem merged_mergeRange {written merged : List LedgerRange} {range : LedgerRange}
    (h : Merged LedgerRange.min LedgerRange.max written merged) (hrange : range.min ≤ range.max)
    (hread : ∀ p ∈ merged, p.min ≤ range.min) :
    Merged LedgerRange.min LedgerRange.max (written ++ [range]) (mergeRange merged range) := by
  rcases List.eq_nil_or_concat merged with rfl | ⟨front, previous, rfl⟩
  · exact h.push hrange fun p hp => absurd hp (Option.not_mem_none p)
  · rw [List.concat_eq_append] at h hread ⊢
    rw [mergeRange, List.getLast?_concat]
    dsimp only
    by_cases hgap : range.min > previous.max + 1
    · rw [if_pos hgap]
      refine h.push hrange fun p hp => ?_
      rw [List.getLast?_concat, Option.mem_some_iff] at hp
      exact hp ▸ hgap
    · rw [if_neg hgap, List.dropLast_concat]
      exact h.widen (hread previous (by simp)) (by omega) rfl rfl

/-- A turn writes no lower end but that of the range read. -/
theorem min_of_mem_mergeRange {merged : List LedgerRange} {range p : LedgerRange}
    (h : p ∈ mergeRange merged range) : p = range ∨ ∃ q ∈ merged, p.min = q.min := by
  rcases List.eq_nil_or_concat merged with rfl | ⟨front, previous, rfl⟩
  · exact .inl (List.mem_singleton.mp h)
  · rw [List.concat_eq_append] at h ⊢
    rw [mergeRange, List.getLast?_concat] at h
    dsimp only at h
    by_cases hgap : range.min > previous.max + 1
    · rw [if_pos hgap] at h
      rcases List.mem_append.mp h with h | h
      · exact .inr ⟨p, h, rfl⟩
      · exact .inl (List.mem_singleton.mp h)
    · rw [if_neg hgap, List.dropLast_concat] at h
      rcases List.mem_append.mp h with h | h
      · exact .inr ⟨p, List.mem_append_left _ h, rfl⟩
      · exact .inr ⟨previous, by simp, by rw [List.mem_singleton.mp h]⟩

theorem merged_foldl (ranges : List LedgerRange) : ∀ read merged : List LedgerRange,
    Merged LedgerRange.min LedgerRange.max read merged → (∀ r ∈ ranges, r.min ≤ r.max) →
    (∀ p ∈ merged, ∀ r ∈ ranges, p.min ≤ r.min) → ranges.Pairwise rangeLe →
    Merged LedgerRange.min LedgerRange.max (read ++ ranges) (ranges.foldl mergeRange merged) := by
  induction ranges with
  | nil =>
    intro read merged h _ _ _
    rwa [List.append_nil]
  | cons range ranges ih =>
    intro read merged h hproper hbefore hsorted
    obtain ⟨hfirst, hsorted⟩ := List.pairwise_cons.mp hsorted
    have hstep := merged_mergeRange h (hproper range List.mem_cons_self)
      fun p hp => hbefore p hp range List.mem_cons_self
    have hnext := ih (read ++ [range]) (mergeRange merged range) hstep
      (fun r hr => hproper r (List.mem_cons_of_mem range hr)) ?_ hsorted
    · rwa [List.append_assoc] at hnext
    · intro p hp r hr
      have hle : range.min ≤ r.min := by
        have := hfirst r hr
        unfold rangeLe at this
        omega
      rcases min_of_mem_mergeRange hp with rfl | ⟨q, hq, heq⟩
      · exact hle
      · rw [heq]
        exact hbefore q hq r (List.mem_cons_of_mem range hr)

/-- The merged ranges are in order and apart, and stand for the same ledgers. -/
theorem merged_sortRanges {written : List LedgerRange} (h : ∀ r ∈ written, r.min ≤ r.max) :
    Merged LedgerRange.min LedgerRange.max written
      ((sortRanges written).foldl mergeRange []) := by
  have hmem : ∀ r, r ∈ sortRanges written ↔ r ∈ written := fun _ => List.mem_insertionSort rangeLe
  have hmerged := merged_foldl (sortRanges written) [] [] .nil (fun r hr => h r ((hmem r).mp hr))
    (fun p hp => absurd hp List.not_mem_nil) (List.pairwise_insertionSort rangeLe written)
  exact ⟨hmerged.proper, hmerged.separated, fun n => (hmerged.covers n).trans (covers_congr hmem n)⟩

theorem WritesRanges.proper {text : JsString} {written : List LedgerRange}
    (h : WritesRanges text written) : ∀ r ∈ written, r.min ≤ r.max := by
  obtain ⟨parts, -, -, hall⟩ := h
  intro r hr
  obtain ⟨i, hi, rfl⟩ := List.getElem_of_mem hr
  have hlength := hall.length_eq
  exact (parseRange_of_writesRange ((List.forall₂_iff_get.mp hall).2 i (hlength ▸ hi) hi)).2

/-! ## The assertion -/

theorem assertSourceCoversProfile_eq_ok {status : SourceServerStatus} {profile : NetworkProfile} :
    assertSourceCoversProfile status profile = .ok () ↔
      status.networkId = profile.networkId ∧
        profile.activationLedgerIndex ≤ status.validatedLedgerIndex ∧
        ∃ r ∈ status.completeLedgerRanges,
          r.min ≤ profile.activationLedgerIndex ∧ status.validatedLedgerIndex ≤ r.max := by
  simp only [assertSourceCoversProfile, bind_eq_ok, ensure_eq_ok, exists_const, beq_iff_eq,
    Bool.not_eq_true', decide_eq_false_iff_not, Nat.not_lt, List.find?_isSome, Bool.and_eq_true,
    decide_eq_true_eq, ge_iff_le]

/-- A text of ranges is accepted; the ranges returned are in order, none of them empty, no two meet
or touch, and they stand for the ledgers that are written.  On a status with these ranges the
assertion passes if and only if the network is that of the profile, the tip is not before
activation, and every ledger from activation to the tip is written. -/
theorem completeLedgers_coverage {text : JsString} {written : List LedgerRange}
    (h : WritesRanges text written) :
    ∃ ranges, parseCompleteLedgers (.str text) = .ok ranges ∧
      (∀ r ∈ ranges, r.min ≤ r.max) ∧
      Separated LedgerRange.min LedgerRange.max ranges ∧
      (∀ n, Covers LedgerRange.min LedgerRange.max ranges n ↔
        Covers LedgerRange.min LedgerRange.max written n) ∧
      ∀ (status : SourceServerStatus) (profile : NetworkProfile),
        status.completeLedgerRanges = ranges →
        (assertSourceCoversProfile status profile = .ok () ↔
          status.networkId = profile.networkId ∧
            profile.activationLedgerIndex ≤ status.validatedLedgerIndex ∧
            ∀ n, profile.activationLedgerIndex ≤ n → n ≤ status.validatedLedgerIndex →
              Covers LedgerRange.min LedgerRange.max written n) := by
  have hmerged := merged_sortRanges h.proper
  refine ⟨_, parseCompleteLedgers_eq_ok.mpr ⟨text, written, rfl, h, rfl⟩, hmerged.proper,
    hmerged.separated, hmerged.covers, fun status profile hranges => ?_⟩
  rw [assertSourceCoversProfile_eq_ok, hranges]
  refine and_congr_right fun _ => and_congr_right fun htip => ?_
  rw [hmerged.separated.covers_iff htip]
  exact forall_congr' fun n => forall_congr' fun _ => forall_congr' fun _ => hmerged.covers n

theorem completeLedgers_coverage_sample :
    ∃ ranges, parseCompleteLedgers (.str (js "9, 5-7,1-3,4")) = .ok ranges ∧
      (∀ n, Covers LedgerRange.min LedgerRange.max ranges n ↔
        Covers LedgerRange.min LedgerRange.max [⟨9, 9⟩, ⟨5, 7⟩, ⟨1, 3⟩, ⟨4, 4⟩] n) := by
  have hnine : WritesRange (js "9") ⟨9, 9⟩ :=
    @WritesRange.single [] (js "9") [] rfl rfl (by decide) (by decide) (by decide)
  have hfive : WritesRange (js " 5-7") ⟨5, 7⟩ :=
    @WritesRange.pair (js " ") (js "5") (js "7") [] (by decide) rfl (by decide) (by decide)
      (by decide) (by decide) (by decide) (by decide)
  have hone : WritesRange (js "1-3") ⟨1, 3⟩ :=
    @WritesRange.pair [] (js "1") (js "3") [] rfl rfl (by decide) (by decide) (by decide)
      (by decide) (by decide) (by decide)
  have hfour : WritesRange (js "4") ⟨4, 4⟩ :=
    @WritesRange.single [] (js "4") [] rfl rfl (by decide) (by decide) (by decide)
  have hwrites : WritesRanges (js "9, 5-7,1-3,4") [⟨9, 9⟩, ⟨5, 7⟩, ⟨1, 3⟩, ⟨4, 4⟩] :=
    ⟨[js "9", js " 5-7", js "1-3", js "4"], by decide, by decide,
      .cons hnine (.cons hfive (.cons hone (.cons hfour .nil)))⟩
  obtain ⟨ranges, hok, -, -, hcovers, -⟩ := completeLedgers_coverage hwrites
  exact ⟨ranges, hok, hcovers⟩

end ProfilePreflight
end Indexer
end Xcs
