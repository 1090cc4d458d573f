import Xcs.Indexer.Types
import Xcs.Run.Basic

/-!
# Two sources as one

`QuorumLedgerSource` asks two ledger sources and answers only where they agree.  It keeps one thing
from one call to the next, the tips it reported last.  What a call does after both sources have
answered happens at once, so a call is one step, and what the sources answered is part of the event:
nothing is assumed about it.

`quorum_safe`: what is returned was returned by both sources, the tips that are kept never go down,
and a call that fails leaves them as they are.
-/

namespace Xcs
namespace Indexer

open Js Json

/-- `ValidatedLedger`, with the fields that only a comparison of ledgers reads. -/
structure SourceLedger extends ValidatedLedger where
  accountRoot : JsString
  parentCloseTime : ℕ
  closeTimeResolution : ℕ
  closeFlags : ℕ
  totalCoins : JsString

/-- `LedgerRange` -/
structure LedgerRange where
  min : ℕ
  max : ℕ
  deriving DecidableEq

/-- `LedgerSourcePreflight` -/
structure LedgerSourcePreflight where
  networkId : ℕ
  completeLedgerRanges : List LedgerRange
  activationLedger : SourceLedger
  tips : LedgerSourceTips

/-- `QuorumSourcePreflightAudit` -/
structure QuorumSourcePreflightAudit where
  tip : ℕ
  completeLedgerRanges : List LedgerRange

/-- `QuorumLedgerSourcePreflight` -/
structure QuorumLedgerSourcePreflight extends LedgerSourcePreflight where
  primary : QuorumSourcePreflightAudit
  secondary : QuorumSourcePreflightAudit

/-! ## Comparing ledgers -/

/-- `isDeepStrictEqual` on transactions. -/
def LedgerTransaction.isDeepStrictEqual (a b : LedgerTransaction) : Bool :=
  a.hash == b.hash && a.transaction.isDeepStrictEqual b.transaction
    && a.metadata.isDeepStrictEqual b.metadata && a.transactionIndex == b.transactionIndex

/-- `isDeepStrictEqual` on lists of transactions. -/
def deepEqualTransactions : List LedgerTransaction → List LedgerTransaction → Bool
  | [], [] => true
  | a :: as, b :: bs => a.isDeepStrictEqual b && deepEqualTransactions as bs
  | _, _ => false

/-- `isDeepStrictEqual` on ledgers. -/
def SourceLedger.isDeepStrictEqual (a b : SourceLedger) : Bool :=
  a.ledgerIndex == b.ledgerIndex && a.ledgerHash == b.ledgerHash && a.parentHash == b.parentHash
    && a.accountRoot == b.accountRoot && a.transactionRoot == b.transactionRoot
    && a.parentCloseTime == b.parentCloseTime && a.closeTime == b.closeTime
    && a.closeTimeResolution == b.closeTimeResolution && a.closeFlags == b.closeFlags
    && a.totalCoins == b.totalCoins && deepEqualTransactions a.transactions b.transactions

/-- `assertSameLedger` -/
def assertSameLedger (primary secondary : SourceLedger) : Except Thrown Unit :=
  ensure (primary.isDeepStrictEqual secondary) (.source .divergence
    (js "XRPL quorum sources disagree on ledger " ++ natToString primary.ledgerIndex))

/-! ## The calls -/

/-- What `both` makes of the reason a source failed with. -/
def sourceReason (operation : JsString) : Thrown → Thrown
  | .source code message => .source code message
  | _ => .source .unavailable (js "XRPL source quorum could not complete " ++ operation)

/-- `both` -/
def both {α : Type} (operation : JsString) (primary secondary : Except Thrown α) :
    Except Thrown (α × α) :=
  match primary, secondary with
  | .error reason, _ => .error (sourceReason operation reason)
  | .ok _, .error reason => .error (sourceReason operation reason)
  | .ok p, .ok s => .ok (p, s)

/-- `assertTipsDoNotRegress` -/
def assertTipsDoNotRegress (previous : Option LedgerSourceTips) (current : LedgerSourceTips) :
    Except Thrown Unit :=
  match previous with
  | none => .ok ()
  | some previous =>
      ensure (decide (previous.primary ≤ current.primary ∧ previous.secondary ≤ current.secondary))
        (.source .tipRegression (js "An XRPL quorum source tip regressed"))

/-- The tips of two sources. -/
def tipsOf (primary secondary : ℕ) : LedgerSourceTips := ⟨primary, secondary, min primary secondary⟩

/-- `preflight`, up to the assignment of the tips. -/
def preflight (profile : NetworkProfile) (primary secondary : Except Thrown LedgerSourcePreflight)
    (lastTips : Option LedgerSourceTips) : Except Thrown QuorumLedgerSourcePreflight := do
  let (primary, secondary) ← both (js "profile preflight") primary secondary
  ensure (primary.networkId == profile.networkId && secondary.networkId == profile.networkId
      && primary.networkId == secondary.networkId)
    (.source .networkMismatch (js "XRPL quorum preflight networks disagree"))
  assertSameLedger primary.activationLedger secondary.activationLedger
  let tips := tipsOf primary.tips.effective secondary.tips.effective
  assertTipsDoNotRegress lastTips tips
  pure
    { networkId := primary.networkId
      completeLedgerRanges := primary.completeLedgerRanges
      activationLedger := primary.activationLedger
      tips := tips
      primary := ⟨primary.tips.effective, primary.completeLedgerRanges⟩
      secondary := ⟨secondary.tips.effective, secondary.completeLedgerRanges⟩ }

/-- `getValidatedLedgerTips`, up to the assignment of the tips. -/
def getValidatedLedgerTips (primary secondary : Except Thrown ℕ)
    (lastTips : Option LedgerSourceTips) : Except Thrown LedgerSourceTips := do
  let (primary, secondary) ← both (js "validated ledger tip lookup") primary secondary
  let tips := tipsOf primary secondary
  assertTipsDoNotRegress lastTips tips
  pure tips

/-- `getLedger` -/
def getLedger (ledgerIndex : ℕ) (primary secondary : Except Thrown SourceLedger) :
    Except Thrown SourceLedger := do
  let (primary, secondary) ←
    both (js "ledger " ++ natToString ledgerIndex ++ js " lookup") primary secondary
  assertSameLedger primary secondary
  pure primary

/-- A call, with what the two sources answer. -/
inductive QuorumCall where
  | preflight (profile : NetworkProfile) (primary secondary : Except Thrown LedgerSourcePreflight)
  | getValidatedLedgerTips (primary secondary : Except Thrown ℕ)
  | getLedger (ledgerIndex : ℕ) (primary secondary : Except Thrown SourceLedger)

/-- What a call returns. -/
abbrev QuorumCall.Answer : QuorumCall → Type
  | preflight .. => QuorumLedgerSourcePreflight
  | getValidatedLedgerTips .. => LedgerSourceTips
  | getLedger .. => SourceLedger

/-- `this.lastTips = tips`, where nothing was thrown before. -/
def assignTips {α : Type} (result : Except Thrown α) (tips : α → LedgerSourceTips)
    (lastTips : Option LedgerSourceTips) : Option LedgerSourceTips :=
  match result with
  | .ok a => some (tips a)
  | .error _ => lastTips

/-- What a call returns or throws, and the tips it leaves. -/
def QuorumCall.perform (lastTips : Option LedgerSourceTips) :
    (c : QuorumCall) → Except Thrown c.Answer × Option LedgerSourceTips
  | preflight profile primary secondary =>
      let result := Indexer.preflight profile primary secondary lastTips
      (result, assignTips result (fun answer => answer.tips) lastTips)
  | getValidatedLedgerTips primary secondary =>
      let result := Indexer.getValidatedLedgerTips primary secondary lastTips
      (result, assignTips result id lastTips)
  | getLedger ledgerIndex primary secondary =>
      (Indexer.getLedger ledgerIndex primary secondary, lastTips)

/-- A call with what it returned or threw. -/
abbrev QuorumEvent := Σ c : QuorumCall, Except Thrown c.Answer

/-- One call after the other. -/
def QuorumStep (lastTips : Option LedgerSourceTips) (event : QuorumEvent)
    (lastTips' : Option LedgerSourceTips) : Prop :=
  event.1.perform lastTips = (event.2, lastTips')

/-! ## What is returned and what was answered -/

/-- The ledger a call returned. -/
def returnedLedger : QuorumEvent → Option SourceLedger
  | ⟨.preflight .., .ok answer⟩ => some answer.activationLedger
  | ⟨.getLedger .., .ok ledger⟩ => some ledger
  | _ => none

/-- The ledgers the two sources answered. -/
def answeredLedgers : QuorumCall → Option (SourceLedger × SourceLedger)
  | .preflight _ (.ok primary) (.ok secondary) =>
      some (primary.activationLedger, secondary.activationLedger)
  | .getLedger _ (.ok primary) (.ok secondary) => some (primary, secondary)
  | _ => none

/-- The tips a call reported. -/
def reportedTips : QuorumEvent → Option LedgerSourceTips
  | ⟨.preflight .., .ok answer⟩ => some answer.tips
  | ⟨.getValidatedLedgerTips .., .ok tips⟩ => some tips
  | _ => none

/-- The tips the two sources answered. -/
def answeredTips : QuorumCall → Option (ℕ × ℕ)
  | .preflight _ (.ok primary) (.ok secondary) =>
      some (primary.tips.effective, secondary.tips.effective)
  | .getValidatedLedgerTips (.ok primary) (.ok secondary) => some (primary, secondary)
  | _ => none

/-- Neither source has a lower tip. -/
def NotLower (tips tips' : Option LedgerSourceTips) : Prop :=
  ∀ t ∈ tips, ∃ t' ∈ tips', t.primary ≤ t'.primary ∧ t.secondary ≤ t'.secondary

theorem NotLower.refl (tips : Option LedgerSourceTips) : NotLower tips tips :=
  fun t ht => ⟨t, ht, le_rfl, le_rfl⟩

theorem NotLower.trans {tips tips' tips'' : Option LedgerSourceTips} (h : NotLower tips tips')
    (h' : NotLower tips' tips'') : NotLower tips tips'' := by
  intro t ht
  obtain ⟨t', ht', hp, hs⟩ := h t ht
  obtain ⟨t'', ht'', hp', hs'⟩ := h' t' ht'
  exact ⟨t'', ht'', hp.trans hp', hs.trans hs'⟩

/-! ## One call -/

theorem both_eq_ok {α : Type} {operation : JsString} {primary secondary : Except Thrown α}
    {p s : α} : both operation primary secondary = .ok (p, s) ↔
      primary = .ok p ∧ secondary = .ok s := by
  cases primary with
  | error reason => simp [both]
  | ok a =>
      cases secondary with
      | error reason => simp [both]
      | ok b => simp [both]

theorem notLower_of_assertTipsDoNotRegress {previous : Option LedgerSourceTips}
    {current : LedgerSourceTips} {u : Unit} (h : assertTipsDoNotRegress previous current = .ok u) :
    NotLower previous (some current) := by
  cases previous with
  | none => exact fun _ ht => nomatch ht
  | some previous =>
      intro t ht
      obtain rfl := Option.some.inj ht
      rw [assertTipsDoNotRegress, ensure_eq_ok, decide_eq_true_eq] at h
      exact ⟨current, rfl, h⟩

theorem assignTips_ok {α : Type} {result : Except Thrown α} {a : α} (h : result = .ok a)
    {tips : α → LedgerSourceTips} {lastTips : Option LedgerSourceTips} :
    assignTips result tips lastTips = some (tips a) := by
  rw [h]
  rfl

theorem assignTips_error {α : Type} {result : Except Thrown α} {fault : Thrown}
    (h : result = .error fault) {tips : α → LedgerSourceTips} {lastTips : Option LedgerSourceTips} :
    assignTips result tips lastTips = lastTips := by
  rw [h]
  rfl

/-- **A preflight that passes.** -/
theorem preflight_eq_ok {profile : NetworkProfile}
    {primary secondary : Except Thrown LedgerSourcePreflight} {lastTips : Option LedgerSourceTips}
    {answer : QuorumLedgerSourcePreflight}
    (h : preflight profile primary secondary lastTips = .ok answer) :
    ∃ p s, primary = .ok p ∧ secondary = .ok s ∧
      p.activationLedger.isDeepStrictEqual s.activationLedger = true ∧
      answer.activationLedger = p.activationLedger ∧
      answer.tips = tipsOf p.tips.effective s.tips.effective ∧
        NotLower lastTips (some answer.tips) := by
  simp only [preflight, bind_eq_ok, assertSameLedger, ensure_eq_ok, pure_eq_ok, Prod.exists,
    both_eq_ok] at h
  obtain ⟨p, s, ⟨hp, hs⟩, _, -, _, hsame, _, htips, rfl⟩ := h
  exact ⟨p, s, hp, hs, hsame, rfl, rfl, notLower_of_assertTipsDoNotRegress htips⟩

theorem getValidatedLedgerTips_eq_ok {primary secondary : Except Thrown ℕ}
    {lastTips : Option LedgerSourceTips} {tips : LedgerSourceTips}
    (h : getValidatedLedgerTips primary secondary lastTips = .ok tips) :
    ∃ p s, primary = .ok p ∧ secondary = .ok s ∧ tips = tipsOf p s ∧
      NotLower lastTips (some tips) := by
  simp only [getValidatedLedgerTips, bind_eq_ok, pure_eq_ok, Prod.exists, both_eq_ok] at h
  obtain ⟨p, s, ⟨hp, hs⟩, _, htips, rfl⟩ := h
  exact ⟨p, s, hp, hs, rfl, notLower_of_assertTipsDoNotRegress htips⟩

theorem getLedger_eq_ok {ledgerIndex : ℕ} {primary secondary : Except Thrown SourceLedger}
    {ledger : SourceLedger} (h : getLedger ledgerIndex primary secondary = .ok ledger) :
    ∃ other, primary = .ok ledger ∧ secondary = .ok other ∧
      ledger.isDeepStrictEqual other = true := by
  simp only [getLedger, bind_eq_ok, assertSameLedger, ensure_eq_ok, pure_eq_ok, Prod.exists,
    both_eq_ok] at h
  obtain ⟨p, s, ⟨hp, hs⟩, _, hsame, rfl⟩ := h
  exact ⟨s, hp, hs, hsame⟩

/-- What one call does: it returns what both sources returned, it reports the tips it leaves, no
lower than before, or it leaves them as they are. -/
structure CallIsSafe (lastTips : Option LedgerSourceTips) (event : QuorumEvent)
    (lastTips' : Option LedgerSourceTips) : Prop where
  ledger : ∀ ledger ∈ returnedLedger event, ∃ other,
    answeredLedgers event.1 = some (ledger, other) ∧ ledger.isDeepStrictEqual other = true
  tips : ∀ tips ∈ reportedTips event, lastTips' = some tips ∧
    ∃ p s, answeredTips event.1 = some (p, s) ∧ tips = ⟨p, s, min p s⟩
  failed : ∀ fault, event.2 = .error fault → lastTips' = lastTips
  notLower : NotLower lastTips lastTips'

theorem QuorumStep.callIsSafe {lastTips lastTips' : Option LedgerSourceTips} {event : QuorumEvent}
    (h : QuorumStep lastTips event lastTips') : CallIsSafe lastTips event lastTips' := by
  obtain ⟨c, answer⟩ := event
  obtain ⟨hanswer, htips⟩ := Prod.mk.inj h
  cases c with
  | preflight profile primary secondary =>
      cases answer with
      | error fault =>
          obtain rfl : lastTips' = lastTips := htips.symm.trans (assignTips_error hanswer)
          exact ⟨fun _ h => (nomatch h), fun _ h => (nomatch h), fun _ _ => rfl, .refl _⟩
      | ok answer =>
          obtain ⟨p, s, rfl, rfl, hsame, hledger, heffective, hnot⟩ := preflight_eq_ok hanswer
          obtain rfl : lastTips' = some answer.tips := htips.symm.trans (assignTips_ok hanswer)
          refine ⟨?_, ?_, fun _ h => (nomatch h), hnot⟩
          · intro ledger hreturned
            obtain rfl := Option.some.inj hreturned
            rw [hledger]
            exact ⟨s.activationLedger, rfl, hsame⟩
          · intro tips hreported
            obtain rfl := Option.some.inj hreported
            exact ⟨rfl, _, _, rfl, heffective⟩
  | getValidatedLedgerTips primary secondary =>
      cases answer with
      | error fault =>
          obtain rfl : lastTips' = lastTips := htips.symm.trans (assignTips_error hanswer)
          exact ⟨fun _ h => (nomatch h), fun _ h => (nomatch h), fun _ _ => rfl, .refl _⟩
      | ok tips =>
          obtain ⟨p, s, rfl, rfl, heffective, hnot⟩ := getValidatedLedgerTips_eq_ok hanswer
          obtain rfl : lastTips' = some tips := htips.symm.trans (assignTips_ok hanswer)
          refine ⟨fun _ h => (nomatch h), ?_, fun _ h => (nomatch h), hnot⟩
          intro tips' hreported
          obtain rfl := Option.some.inj hreported
          exact ⟨rfl, p, s, rfl, heffective⟩
  | getLedger ledgerIndex primary secondary =>
      obtain rfl : lastTips' = lastTips := htips.symm
      cases answer with
      | error fault =>
          exact ⟨fun _ h => (nomatch h), fun _ h => (nomatch h), fun _ _ => rfl, .refl _⟩
      | ok ledger =>
          obtain ⟨other, hprimary, hsecondary, hequal⟩ := getLedger_eq_ok hanswer
          refine ⟨?_, fun _ h => (nomatch h), fun _ _ => rfl, .refl _⟩
          intro ledger' hreturned
          obtain rfl := Option.some.inj hreturned
          refine ⟨other, ?_, hequal⟩
          show answeredLedgers (.getLedger ledgerIndex primary secondary) = _
          rw [hprimary, hsecondary]
          rfl

/-! ## Runs -/

/-- What a run has reported is no higher than what is kept. -/
theorem reported_notLower {tr : List QuorumEvent} {lastTips : Option LedgerSourceTips}
    (h : Run QuorumStep none tr lastTips) :
    ∀ event ∈ tr, NotLower (reportedTips event) lastTips := by
  refine h.induction
    (P := fun tr lastTips => ∀ event ∈ tr, NotLower (reportedTips event) lastTips) ?_ ?_
  · exact fun _ hevent => absurd hevent List.not_mem_nil
  · intro tr lastTips event lastTips' _ ih hstep event' hmem
    have hsafe := hstep.callIsSafe
    rcases List.mem_append.mp hmem with hold | hnew
    · exact (ih event' hold).trans hsafe.notLower
    · rw [List.mem_singleton.mp hnew]
      intro tips htips
      exact ⟨tips, (hsafe.tips tips htips).1, le_rfl, le_rfl⟩

/-- **The source is safe**, whatever the two sources answer: each call of a run is as `CallIsSafe`
says, the tips that are kept never go down, and they are no lower than any that were reported. -/
theorem quorum_safe {tr : List QuorumEvent} {lastTips : Option LedgerSourceTips}
    (h : Run QuorumStep none tr lastTips) :
    (∀ tr₁ event tr₂, tr = tr₁ ++ event :: tr₂ → ∃ before after, Run QuorumStep none tr₁ before ∧
      QuorumStep before event after ∧ Run QuorumStep after tr₂ lastTips ∧
        CallIsSafe before event after ∧ NotLower after lastTips) ∧
      ∀ event ∈ tr, NotLower (reportedTips event) lastTips := by
  refine ⟨?_, reported_notLower h⟩
  rintro tr₁ event tr₂ rfl
  obtain ⟨before, hbefore, hrest⟩ := h.split
  obtain ⟨after, hstep, hafter⟩ := hrest.cons_inv
  refine ⟨before, after, hbefore, hstep, hafter, hstep.callIsSafe, ?_⟩
  refine hafter.invariant (P := NotLower after) ?_ (.refl after)
  exact fun tips event tips' hlower hstep => hlower.trans hstep.callIsSafe.notLower

/-! ### Two calls -/

def sampleLedger : SourceLedger where
  ledgerIndex := 100
  ledgerHash := List.replicate 64 0x61
  parentHash := List.replicate 64 0x62
  transactionRoot := List.replicate 64 0x64
  closeTime := 1000
  transactions := [⟨List.replicate 64 0x65, .obj [(js "TransactionType", .str (js "Payment"))],
    .obj [(js "TransactionResult", .str (js "tesSUCCESS"))], 0⟩]
  accountRoot := List.replicate 64 0x63
  parentCloseTime := 999
  closeTimeResolution := 10
  closeFlags := 0
  totalCoins := js "99999999999999999"

/-- The tips of the two sources, and a ledger. -/
theorem quorum_safe_sample :
    ∃ before after, QuorumStep before
      ⟨.getLedger 100 (.ok sampleLedger) (.ok sampleLedger), .ok sampleLedger⟩ after ∧
      NotLower (some ⟨101, 102, 101⟩) after := by
  have htips : QuorumStep none ⟨.getValidatedLedgerTips (.ok 101) (.ok 102), .ok ⟨101, 102, 101⟩⟩
      (some ⟨101, 102, 101⟩) := rfl
  have hledger : QuorumStep (some ⟨101, 102, 101⟩)
      ⟨.getLedger 100 (.ok sampleLedger) (.ok sampleLedger), .ok sampleLedger⟩
      (some ⟨101, 102, 101⟩) := rfl
  have hsafe := quorum_safe ((Run.single htips).snoc hledger)
  obtain ⟨before, after, -, hstep, hrest, -⟩ := hsafe.1 _ _ [] rfl
  refine ⟨before, after, hstep, ?_⟩
  have := hsafe.2 _ (List.mem_append_left _ (List.mem_singleton_self _))
  rw [← hrest.nil_inv]
  exact this

end Indexer
end Xcs
