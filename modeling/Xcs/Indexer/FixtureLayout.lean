import Xcs.Indexer.FixtureFiles
import Xcs.Run.Blocks

/-!
# The layout of the index

Three parts of the program count in chunks: the capture cuts the ledgers it writes, the manifest
checks the chunks it is given, and the source finds the chunk of a ledger.  Each of them is compared
with `blocks`, the interval cut into blocks of a fixed size.

* `bounds_of_parseIndex`: the chunks of a manifest are the blocks of its range.
* `returns_captureIndex`: the capture makes the blocks of its range.
* `chunkLayout` puts the three together.
-/

namespace Xcs
namespace Indexer
namespace Fixture

open Js Json Xcs.Core

variable {P : Platform} {Z : Gzip}

/-! ## Checks -/

@[simp] theorem check_eq_ok {condition : Bool} {code : LedgerFixtureBundleErrorCode}
    {message : JsString} {u : Unit} : check condition code message = .ok u ↔ condition = true := by
  unfold check
  cases condition with
  | true => exact iff_of_true rfl rfl
  | false => exact iff_of_false (fun h => (by cases h)) (fun h => (by cases h))

theorem record_eq_ok {value : JsValue} {message : JsString} {members : Members} :
    record value message = .ok members ↔ value = .obj members := by
  unfold record
  cases value with
  | obj ms => rw [Except.ok.injEq, JsValue.obj.injEq]
  | _ => exact iff_of_false (fun h => (by cases h)) (fun h => (by cases h))

theorem arrayItems_eq_ok {value : JsValue} {message : JsString} {items : List JsValue} :
    arrayItems value message = .ok items ↔ value = .arr items := by
  unfold arrayItems
  cases value with
  | arr vs => rw [Except.ok.injEq, JsValue.arr.injEq]
  | _ => exact iff_of_false (fun h => (by cases h)) (fun h => (by cases h))

theorem exactKeys_eq_ok {members : Members} {expected : List JsString} {label : JsString}
    {u : Unit} :
    exactKeys members expected label = .ok u ↔ (members.map Prod.fst).Perm expected := by
  unfold exactKeys
  rw [check_eq_ok, List.isPerm_iff]

theorem orFail_eq_ok {α : Type} {result : Except Thrown α} {code : LedgerFixtureBundleErrorCode}
    {message : JsString} {a : α} : orFail result code message = .ok a ↔ result = .ok a := by
  unfold orFail
  cases result with
  | ok b => rw [Except.ok.injEq, Except.ok.injEq]
  | error e => exact iff_of_false (fun h => (by cases h)) (fun h => (by cases h))

/-! ## Values with the same canonical form -/

/-- A number that fits is read. -/
theorem uint32_of_canon {v : JsValue} {n : ℕ} (hn : n ≤ 0xffffffff)
    (h : v.canon = (JsValue.num (JsNumber.ofNat n)).canon) (label : JsString) :
    uint32 v label = .ok n := by
  obtain ⟨m, rfl, hm⟩ := JsValue.exists_num_of_canon_eq h
  have huint : Indexer.uint32 (.num m) = some n := by
    show m.toUint32? = some n
    unfold JsNumber.toUint32?
    rw [hm, JsNumber.toNat?_ofNat (by omega)]
    exact if_pos (decide_eq_true hn)
  unfold uint32
  rw [huint]

theorem isNumber_of_canon {v : JsValue} {n : ℕ} (hn : n ≤ 0xffffffff)
    (h : v.canon = (JsValue.num (JsNumber.ofNat n)).canon) : isNumber v n = true := by
  obtain ⟨m, rfl, hm⟩ := JsValue.exists_num_of_canon_eq h
  show (m.toNat? == some n) = true
  rw [hm, JsNumber.toNat?_ofNat (by omega)]
  exact beq_self_eq_true _

/-- A lowercase hash is read. -/
theorem hash_of_canon {v : JsValue} {s : JsString} (hs : isLowerHash s = true)
    (h : v.canon = (JsValue.str s).canon) (label : JsString) : hash v label = .ok s := by
  rw [JsValue.canon_str, JsValue.canon_eq_str] at h
  subst h
  have hne : s ≠ [] := by
    rintro rfl
    cases hs
  obtain ⟨u, rest, rfl⟩ := List.exists_cons_of_ne_nil hne
  have hstring : string (.str (u :: rest)) label = .ok (u :: rest) := rfl
  unfold hash
  rw [hstring]
  show (check (isLowerHash (u :: rest)) .invalid _ >>= fun _ => pure (u :: rest)) = _
  rw [hs]
  rfl

/-- What is read from each value has a property that the function gives. -/
theorem forall_of_mapPositions {α : Type} {parse : JsValue → ℕ → FixtureResult α} {Q : α → Prop}
    (hparse : ∀ value position a, parse value position = .ok a → Q a) {position : ℕ}
    {values : List JsValue} {as : List α} (h : mapPositions parse position values = .ok as) :
    (∀ a ∈ as, Q a) ∧ as.length = values.length := by
  induction values generalizing position as with
  | nil =>
      cases h
      exact ⟨fun _ ha => (by cases ha), rfl⟩
  | cons value values ih =>
      simp only [mapPositions, bind_eq_ok, pure_eq_ok] at h
      obtain ⟨a, ha, rest, hrest, rfl⟩ := h
      obtain ⟨hall, hlength⟩ := ih hrest
      refine ⟨List.forall_mem_cons.mpr ⟨hparse _ _ _ ha, hall⟩, ?_⟩
      rw [List.length_cons, List.length_cons, hlength]

/-- Values that were made from what they are read as. -/
theorem mapPositions_of_canon {α : Type} {parse : JsValue → ℕ → FixtureResult α}
    {toJs : α → JsValue} {as : List α}
    (hparse : ∀ a ∈ as, ∀ v : JsValue, v.canon = (toJs a).canon →
      ∀ position, parse v position = .ok a)
    {values : List JsValue} (h : values.map JsValue.canon = (as.map toJs).map JsValue.canon)
    (position : ℕ) : mapPositions parse position values = .ok as := by
  induction as generalizing values position with
  | nil =>
      rw [List.map_nil, List.map_nil, List.map_eq_nil_iff] at h
      rw [h]
      rfl
  | cons a as ih =>
      cases values with
      | nil => cases h
      | cons v values =>
          rw [List.map_cons, List.map_cons, List.map_cons, List.cons.injEq] at h
          rw [List.forall_mem_cons] at hparse
          rw [mapPositions, hparse.1 v h.1 position, ih hparse.2 h.2 (position + 1)]
          rfl

/-! ## The chunks of a manifest -/

/-- The first and the last ledger of a chunk. -/
def bounds (chunk : LedgerFixtureIndexChunk) : ℕ × ℕ := (chunk.first, chunk.last)

theorem of_parseIndexChunk {value : JsValue} {position : ℕ} {chunk : LedgerFixtureIndexChunk}
    (h : parseIndexChunk value position = .ok chunk) : chunk.first ≤ chunk.last := by
  simp only [parseIndexChunk, bind_eq_ok, check_eq_ok, exactKeys_eq_ok, exists_const,
    pure_eq_ok] at h
  obtain ⟨_, -, -, first, -, last, -, hrange, _, -, _, -, rfl⟩ := h
  simp only [Bool.not_eq_true', Bool.or_eq_false_iff, decide_eq_false_iff_not] at hrange
  exact Nat.le_of_not_lt hrange.1.2

/-- The check from left to right. -/
theorem consecutive_iff_checkAligned {range : IndexRange} {chunks : List LedgerFixtureIndexChunk}
    {start : ℕ} {u : Unit} (hchunks : ∀ chunk ∈ chunks, chunk.first ≤ chunk.last) :
    checkAligned range start chunks = .ok u ↔
      Consecutive ledgerFixtureIndexEntriesPerChunk range.last start (chunks.map bounds) := by
  induction chunks generalizing start with
  | nil => exact iff_of_true rfl trivial
  | cons chunk chunks ih =>
      rw [List.forall_mem_cons] at hchunks
      simp only [checkAligned, bind_eq_ok, check_eq_ok, exists_const, Bool.and_eq_true, beq_iff_eq,
        ih hchunks.2, List.map_cons, Consecutive, bounds, hchunks.1, true_and, and_assoc]

/-- **The chunks of a manifest are the blocks of its range.** -/
theorem bounds_of_parseIndex {range : IndexRange} {index : JsValue}
    {chunks : List LedgerFixtureIndexChunk} (hrange : range.first ≤ range.last)
    (h : parseIndex range index = .ok chunks) :
    chunks.map bounds = blocks ledgerFixtureIndexEntriesPerChunk range.first range.last := by
  simp only [parseIndex, bind_eq_ok, check_eq_ok, exactKeys_eq_ok, exists_const, pure_eq_ok] at h
  obtain ⟨_, -, -, -, items, -, hnonempty, _, hparse, _, haligned, hlast, rfl⟩ := h
  obtain ⟨hchunks, hlength⟩ := forall_of_mapPositions (fun _ _ _ => of_parseIndexChunk) hparse
  refine eq_blocks_of_consecutive (by decide) hrange
    ((consecutive_iff_checkAligned hchunks).mp haligned)
    ?_ ?_
  · intro hnil
    rw [List.map_eq_nil_iff] at hnil
    rw [hnil, List.length_nil] at hlength
    rw [List.length_eq_zero_iff.mp hlength.symm] at hnonempty
    cases hnonempty
  · intro b hb
    rw [List.getLast?_map, Option.mem_def, Option.map_eq_some_iff] at hb
    obtain ⟨chunk, hchunk, rfl⟩ := hb
    rw [hchunk, Option.any_some, beq_iff_eq] at hlast
    exact hlast

/-! ## The index that is written -/

/-- A chunk whose digests are lowercase hashes. -/
def HasDigests (chunk : LedgerFixtureIndexChunk) : Prop :=
  isLowerHash chunk.contentSha256 = true ∧ isLowerHash chunk.compressedSha256 = true

/-- A chunk is read back. -/
theorem parseIndexChunk_of_canon {chunk : LedgerFixtureIndexChunk} (hdigests : HasDigests chunk)
    (hfirst : chunk.first ≠ 0) (hle : chunk.first ≤ chunk.last) (hlast : chunk.last ≤ 0xffffffff)
    (hlength : chunk.last - chunk.first + 1 ≤ ledgerFixtureIndexEntriesPerChunk) {v : JsValue}
    (h : v.canon = (chunkJs chunk).canon) (position : ℕ) :
    parseIndexChunk v position = .ok chunk := by
  obtain ⟨members, rfl, hkeys⟩ := JsValue.exists_obj_perm_of_canon_eq h
  have hget := JsValue.get_eq_of_canon_eq h
  simp only [parseIndexChunk, bind_eq_ok, check_eq_ok, record_eq_ok, exactKeys_eq_ok, pure_eq_ok]
  refine ⟨members, rfl, (), hkeys, _, uint32_of_canon (hle.trans hlast) (hget (js "from")) _,
    _, uint32_of_canon hlast (hget (js "to")) _, (), ?_,
    _, hash_of_canon hdigests.1 (hget (js "contentSha256")) _,
    _, hash_of_canon hdigests.2 (hget (js "compressedSha256")) _, rfl⟩
  simp only [Bool.not_eq_true', Bool.or_eq_false_iff, decide_eq_false_iff_not, beq_eq_false_iff_ne]
  exact ⟨⟨hfirst, by omega⟩, by omega⟩

/-- **An index whose chunks are the blocks of the range is read back.** -/
theorem parseIndex_of_canon {range : IndexRange} {chunks : List LedgerFixtureIndexChunk}
    (hfirst : range.first ≠ 0) (hrange : range.first ≤ range.last)
    (hlast : range.last ≤ 0xffffffff) (hdigests : ∀ chunk ∈ chunks, HasDigests chunk)
    (hblocks : chunks.map bounds = blocks ledgerFixtureIndexEntriesPerChunk range.first range.last)
    {index : JsValue} (h : index.canon = (indexJs chunks).canon) :
    parseIndex range index = .ok chunks := by
  have hpos : 0 < ledgerFixtureIndexEntriesPerChunk := by decide
  have hbounds : ∀ chunk ∈ chunks, range.first ≤ chunk.first ∧ chunk.first ≤ chunk.last ∧
      chunk.last ≤ range.last ∧
        chunk.last - chunk.first + 1 ≤ ledgerFixtureIndexEntriesPerChunk := by
    intro chunk hchunk
    refine of_mem_blocks (b := bounds chunk) hpos hrange ?_
    rw [← hblocks]
    exact List.mem_map_of_mem hchunk
  have hchunks : ∀ chunk ∈ chunks, ∀ v : JsValue, v.canon = (chunkJs chunk).canon →
      ∀ position, parseIndexChunk v position = .ok chunk := by
    intro chunk hchunk v hv position
    obtain ⟨hge, hle, hend, hlength⟩ := hbounds chunk hchunk
    exact parseIndexChunk_of_canon (hdigests chunk hchunk) (by omega) hle (hend.trans hlast)
      hlength hv position
  obtain ⟨hconsecutive, hend⟩ := consecutive_blocks hpos hrange
  rw [← hblocks] at hconsecutive hend
  obtain ⟨members, rfl, hkeys⟩ := JsValue.exists_obj_perm_of_canon_eq h
  have hget := JsValue.get_eq_of_canon_eq h
  obtain ⟨items, hitems, hcanon⟩ := JsValue.exists_arr_of_canon_eq (hget (js "chunks"))
  have hparsed : mapPositions parseIndexChunk 0 items = .ok chunks :=
    mapPositions_of_canon hchunks hcanon 0
  have haligned : checkAligned range range.first chunks = .ok () :=
    (consecutive_iff_checkAligned fun chunk hchunk => (hbounds chunk hchunk).2.1).mpr hconsecutive
  -- there is a last chunk, since there is a block
  have hne : chunks ≠ [] := by
    rintro rfl
    obtain ⟨b, hb, -⟩ := exists_getElem?_blocks hpos (Nat.le_refl range.first) hrange
    rw [← hblocks] at hb
    cases hb
  have hlength := (forall_of_mapPositions (Q := fun _ => True) (fun _ _ _ _ => trivial) hparsed).2
  simp only [parseIndex, bind_eq_ok, check_eq_ok, record_eq_ok, arrayItems_eq_ok, exactKeys_eq_ok,
    pure_eq_ok]
  refine ⟨members, rfl, (), hkeys, (), isNumber_of_canon (by decide) (hget (js "entriesPerChunk")),
    items, hitems, (), ?_, chunks, hparsed, (), haligned, (), ?_, rfl⟩
  · rw [Bool.not_eq_true', List.isEmpty_eq_false_iff]
    rintro rfl
    exact hne (List.length_eq_zero_iff.mp hlength)
  · obtain ⟨chunk, hchunk⟩ := Option.ne_none_iff_exists'.mp fun hnone =>
      hne (List.getLast?_eq_none_iff.mp hnone)
    rw [List.getLast?_map, hchunk] at hend
    rw [hchunk, Option.any_some, beq_iff_eq]
    exact hend (bounds chunk) rfl

/-! ## The capture -/

/-- Where the loop is before the ledger `next`: the blocks before `start` are emitted, and the
ledgers from there on are pending. -/
structure IsCapturing (first last next : ℕ) (s : CaptureState) (start : ℕ) : Prop where
  previous : (s.previous = none → next = first) ∧
    ∀ p ∈ s.previous, next = p.ledgerIndex + 1
  pending : s.pendingEntries.map LedgerFixtureEntry.ledgerIndex
    = List.range' start s.pendingEntries.length
  next_eq : next = start + s.pendingEntries.length
  length_lt : s.pendingEntries.length < ledgerFixtureIndexEntriesPerChunk
  pending_nil : last < next → s.pendingEntries = []
  emitted : Emitted ledgerFixtureIndexEntriesPerChunk first last start (s.chunks.map bounds)
  digests : ∀ chunk ∈ s.chunks, HasDigests chunk

theorem returns_writeLedger (directory : List JsString) (ledger : SourceLedger) :
    (writeLedger P Z directory ledger).Returns fun entry =>
      entry.ledgerIndex = ledger.ledgerIndex := by
  refine Program.Returns.bind (P := fun r : List UInt8 × LedgerFixtureEntry =>
    r.2.ledgerIndex = ledger.ledgerIndex) ?_ (Program.Returns.done ?_)
  · intro r hr written
    cases written with
    | true => exact hr
    | false => exact trivial
  · intro r hr
    simp only [ledgerBytes, bind_eq_ok, pure_eq_ok] at hr
    obtain ⟨content, -, _, -, _, -, rfl⟩ := hr
    rfl

/-- A chunk that is written spans the entries it is written from. -/
theorem returns_writeIndexChunk (directory : List JsString) {entries : List LedgerFixtureEntry}
    {start n : ℕ} (h : entries.map LedgerFixtureEntry.ledgerIndex = List.range' start (n + 1)) :
    (writeIndexChunk P Z directory entries).Returns fun chunk =>
      bounds chunk = (start, start + n) ∧ HasDigests chunk := by
  refine Program.Returns.bind (P := fun r : List UInt8 × LedgerFixtureIndexChunk =>
    bounds r.2 = (start, start + n) ∧ HasDigests r.2) ?_ (Program.Returns.done ?_)
  · intro r hr written
    cases written with
    | true => exact hr
    | false => exact trivial
  · intro r hr
    have hhead : (entries.map LedgerFixtureEntry.ledgerIndex).head? = some start := by
      rw [h]
      rfl
    have hlast : (entries.map LedgerFixtureEntry.ledgerIndex).getLast? = some (start + n) := by
      rw [h, List.range'_1_concat, List.getLast?_concat]
    rw [List.head?_map, Option.map_eq_some_iff] at hhead
    rw [List.getLast?_map, Option.map_eq_some_iff] at hlast
    obtain ⟨first, hfirst, rfl⟩ := hhead
    obtain ⟨last, hlastEntry, hindex⟩ := hlast
    simp only [indexChunkBytes, hfirst, hlastEntry, bind_eq_ok, pure_eq_ok] at hr
    obtain ⟨_, -, content, -, _, -, _, -, rfl⟩ := hr
    exact ⟨Prod.ext rfl hindex, isLowerHash_sha256Hex P _, isLowerHash_sha256Hex P _⟩

/-- **One ledger.** -/
theorem returns_captureLedger {directory : List JsString} {profile : NetworkProfile}
    {last next start : ℕ} {s : CaptureState} (hnext : next ≤ last)
    (h : IsCapturing profile.activationLedgerIndex last next s start) :
    (captureLedger P Z directory profile last next s).Returns fun t =>
      ∃ start', IsCapturing profile.activationLedgerIndex last (next + 1) t start' := by
  have hsource : (sourceLedger next).Returns fun _ => True := by
    intro answer
    cases answer with
    | some ledger => exact trivial
    | none => exact trivial
  refine Program.Returns.bind (fun ledger _ => ?_) hsource
  -- the ledger follows the one before, so it is the one that is asked for
  refine Program.Returns.bind (P := fun _ => ledger.ledgerIndex = next) (fun _ hindex => ?_)
    (Program.Returns.done fun u hu => ?_)
  swap
  · cases hcontinuity : assertLedgerContinuity profile (s.previous.map checkpoint)
        ledger.toValidatedLedger with
    | error e =>
        rw [hcontinuity] at hu
        cases hu
    | ok u =>
        have hcontinues := assertLedgerContinuity_eq_ok.mp hcontinuity
        obtain ⟨hnone, hsome⟩ := h.previous
        cases hprevious : s.previous with
        | none =>
            rw [hprevious] at hcontinues
            rw [hnone hprevious]
            exact hcontinues.1
        | some previous =>
            rw [hprevious] at hcontinues
            rw [hsome previous hprevious]
            exact hcontinues.1
  refine Program.Returns.bind (fun entry hentry => ?_) (returns_writeLedger directory ledger)
  have hpending : (s.pendingEntries ++ [entry]).map LedgerFixtureEntry.ledgerIndex
      = List.range' start (s.pendingEntries.length + 1) := by
    rw [List.map_append, List.map_singleton, h.pending, List.range'_1_concat, hentry, hindex,
      h.next_eq]
  have hlength : (s.pendingEntries ++ [entry]).length = s.pendingEntries.length + 1 :=
    List.length_append
  have hprevious : (some ledger = none → next + 1 = profile.activationLedgerIndex) ∧
      ∀ p ∈ some ledger, next + 1 = p.ledgerIndex + 1 := by
    refine ⟨fun hnone => (by cases hnone), ?_⟩
    intro p hp
    rw [← Option.mem_some_iff.mp hp, hindex]
  have hlt := h.length_lt
  have hnextEq := h.next_eq
  dsimp only
  split_ifs with hclosed
  · -- the pending entries become a chunk
    refine Program.Returns.bind (fun chunk hchunk => ?_)
      (returns_writeIndexChunk directory hpending)
    refine ⟨next + 1, ⟨hprevious, rfl, rfl, Nat.succ_pos _, fun _ => rfl, ?_, ?_⟩⟩
    · rw [hlength] at hclosed
      rw [List.map_append, List.map_singleton, hchunk.1, ← hnextEq]
      exact h.emitted.snoc (by omega) hnext (by omega) (by omega)
    · intro c hc
      rcases List.mem_append.mp hc with hc | hc
      · exact h.digests c hc
      · rw [List.mem_singleton.mp hc]
        exact hchunk.2
  · rw [not_or, hlength] at hclosed
    refine ⟨start, ⟨hprevious, ?_, ?_, ?_, fun hgt => ?_, h.emitted, h.digests⟩⟩
    · rw [hpending, hlength]
    · show next + 1 = start + (s.pendingEntries ++ [entry]).length
      omega
    · show (s.pendingEntries ++ [entry]).length < ledgerFixtureIndexEntriesPerChunk
      omega
    · omega

/-- **Every ledger that is left.** -/
theorem returns_captureLedgers {directory : List JsString} {profile : NetworkProfile}
    {last n next start : ℕ} {s : CaptureState} (hn : next + n = last + 1)
    (h : IsCapturing profile.activationLedgerIndex last next s start) :
    (captureLedgers P Z directory profile last n next s).Returns fun chunks =>
      chunks.map bounds
          = blocks ledgerFixtureIndexEntriesPerChunk profile.activationLedgerIndex last ∧
        ∀ chunk ∈ chunks, HasDigests chunk := by
  induction n generalizing next s start with
  | zero =>
      have hnil := h.pending_nil (by omega)
      have hnext := h.next_eq
      rw [hnil, List.length_nil] at hnext
      exact ⟨h.emitted.eq_blocks (by omega), h.digests⟩
  | succ n ih =>
      refine Program.Returns.bind (fun t ht => ?_) (returns_captureLedger (by omega) h)
      obtain ⟨start', ht⟩ := ht
      exact ih (by omega) ht

/-- **The capture makes the blocks of its range**, whatever the source and the files answer. -/
theorem returns_captureIndex {directory : List JsString} {profileInput : JsValue} {last : ℕ} :
    (captureIndex P Z directory profileInput last).Returns fun r =>
      r.1.last = last ∧ r.1.first ≠ 0 ∧ r.1.first ≤ r.1.last ∧ r.1.last ≤ 0xffffffff ∧
        r.2.map bounds = blocks ledgerFixtureIndexEntriesPerChunk r.1.first r.1.last ∧
          ∀ chunk ∈ r.2, HasDigests chunk := by
  refine Program.Returns.bind (P := fun profile : NetworkProfile =>
    profile.activationLedgerIndex ≠ 0) (fun profile hprofile => ?_)
    (Program.Returns.done fun profile hprofile => ?_)
  swap
  · exact (Sdk.of_parseCoreNetworkProfile (orFail_eq_ok.mp hprofile)).2.2
  refine Program.Returns.bind (P := fun _ => profile.activationLedgerIndex ≤ last ∧
    last ≤ 0xffffffff) (fun _ hlast => ?_) (Program.Returns.done fun _ hlast =>
      of_decide_eq_true (check_eq_ok.mp hlast))
  have hstart : IsCapturing profile.activationLedgerIndex last profile.activationLedgerIndex
      ⟨[], [], none⟩ profile.activationLedgerIndex :=
    ⟨⟨fun _ => rfl, fun _ hp => (by cases hp)⟩, rfl, rfl, Nat.succ_pos _, fun _ => rfl,
      Emitted.nil hlast.1, fun _ hchunk => (by cases hchunk)⟩
  refine Program.Returns.bind (fun chunks hchunks => ?_) (returns_captureLedgers (by omega) hstart)
  exact ⟨rfl, hprofile, hlast.1, hlast.2, hchunks.1, hchunks.2⟩

/-! ## Finding a ledger -/

/-- The entries of a chunk are its ledgers, in order. -/
def IsAligned (cached : CachedChunk) : Prop :=
  cached.entries.map LedgerFixtureEntry.ledgerIndex
    = List.range' cached.descriptor.first (cached.descriptor.last - cached.descriptor.first + 1)

theorem checkContiguous_eq_ok {message : JsString} {ledgerIndex : ℕ}
    {entries : List LedgerFixtureEntry} {u : Unit} :
    checkContiguous message ledgerIndex entries = .ok u ↔
      entries.map LedgerFixtureEntry.ledgerIndex = List.range' ledgerIndex entries.length := by
  induction entries generalizing ledgerIndex with
  | nil => exact iff_of_true rfl rfl
  | cons entry entries ih =>
      simp only [checkContiguous, bind_eq_ok, check_eq_ok, exists_const, beq_iff_eq, ih,
        List.map_cons, List.length_cons, List.range'_succ, List.cons.injEq]

/-- A chunk that was read is aligned. -/
theorem isAligned_of_readIndexChunk {files : Files} {directory : List JsString}
    {chunk : LedgerFixtureIndexChunk} {entries : List LedgerFixtureEntry}
    (h : readIndexChunk P Z files directory chunk = .ok entries) : IsAligned ⟨chunk, entries⟩ := by
  simp only [readIndexChunk, bind_eq_ok, check_eq_ok, exists_const, beq_iff_eq, pure_eq_ok,
    checkContiguous_eq_ok] at h
  obtain ⟨_, -, _, -, -, _, -, _, -, hlength, hcontiguous, rfl⟩ := h
  rw [hlength] at hcontiguous
  exact hcontiguous

theorem isAligned_of_loadChunk {files : Files} {directory : List JsString}
    {cachedChunk : Option CachedChunk} {chunk : LedgerFixtureIndexChunk} {cached : CachedChunk}
    (hcached : ∀ c ∈ cachedChunk, IsAligned c)
    (h : loadChunk P Z files directory cachedChunk chunk = .ok cached) :
    IsAligned cached ∧ cached.descriptor.first = chunk.first ∧
      cached.descriptor.last = chunk.last := by
  have hread : ∀ {c : CachedChunk}, (do
      let entries ← readIndexChunk P Z files directory chunk
      pure ⟨chunk, entries⟩ : FixtureResult CachedChunk) = .ok c →
      IsAligned c ∧ c.descriptor.first = chunk.first ∧ c.descriptor.last = chunk.last := by
    intro c hc
    simp only [bind_eq_ok, pure_eq_ok] at hc
    obtain ⟨entries, hentries, rfl⟩ := hc
    exact ⟨isAligned_of_readIndexChunk hentries, rfl, rfl⟩
  cases cachedChunk with
  | none => exact hread h
  | some c =>
      unfold loadChunk at h
      dsimp only at h
      split_ifs at h with hsame
      · cases h
        exact ⟨hcached _ rfl, hsame⟩
      · exact hread h

/-- A chunk stays aligned in the cache. -/
theorem isAligned_of_run {manifest : LedgerFixtureBundleManifest} {directory : List JsString}
    {tr : List (Files × ℕ)} {cachedChunk : Option CachedChunk}
    (hrun : Run (GetLedgerStep P Z manifest directory) none tr cachedChunk) :
    ∀ c ∈ cachedChunk, IsAligned c := by
  refine hrun.invariant (P := fun cache => ∀ c ∈ cache, IsAligned c) ?_ fun c hc => (by cases hc)
  rintro cache e cache' hcache ⟨files, ledgerIndex⟩
  unfold getLedger
  split
  · exact hcache
  · split
    · exact hcache
    · rename_i cached hload
      intro c hc
      rw [← Option.mem_some_iff.mp hc]
      exact (isAligned_of_loadChunk hcache hload).1

/-- **The chunk of a ledger** of the range. -/
theorem exists_selectChunk {manifest : LedgerFixtureBundleManifest}
    (hblocks : manifest.chunks.map bounds
      = blocks ledgerFixtureIndexEntriesPerChunk manifest.range.first manifest.range.last)
    {ledgerIndex : ℕ} (hfirst : manifest.range.first ≤ ledgerIndex)
    (hlast : ledgerIndex ≤ manifest.range.last) :
    ∃ chunk ∈ manifest.chunks, selectChunk manifest ledgerIndex = .ok chunk ∧
      chunk.first ≤ ledgerIndex ∧ ledgerIndex ≤ chunk.last := by
  obtain ⟨b, hb, hge, hle⟩ := exists_getElem?_blocks
    (show 0 < ledgerFixtureIndexEntriesPerChunk by decide) hfirst hlast
  rw [← hblocks, List.getElem?_map, Option.map_eq_some_iff] at hb
  obtain ⟨chunk, hchunk, rfl⟩ := hb
  refine ⟨chunk, List.mem_of_getElem? hchunk, ?_, hge, hle⟩
  have hrange : check (decide (manifest.range.first ≤ ledgerIndex
      ∧ ledgerIndex ≤ manifest.range.last)) .rangeInvalid
      (js "ledger " ++ natToString ledgerIndex ++ js " is outside the fixture range") = .ok () :=
    check_eq_ok.mpr (decide_eq_true ⟨hfirst, hlast⟩)
  have hcover : check (decide (chunk.first ≤ ledgerIndex ∧ ledgerIndex ≤ chunk.last))
      .integrityFailed (js "fixture index does not cover the ledger") = .ok () :=
    check_eq_ok.mpr (decide_eq_true ⟨hge, hle⟩)
  unfold selectChunk
  rw [hrange]
  dsimp only [bind, Except.bind]
  rw [hchunk]
  dsimp only
  rw [hcover]
  rfl

/-- **The entry of a ledger** of an aligned chunk. -/
theorem exists_selectEntry {cached : CachedChunk} {chunk : LedgerFixtureIndexChunk}
    (hcached : IsAligned cached) (hdescriptor : cached.descriptor.first = chunk.first ∧
      cached.descriptor.last = chunk.last) {ledgerIndex : ℕ} (hfirst : chunk.first ≤ ledgerIndex)
    (hlast : ledgerIndex ≤ chunk.last) :
    ∃ entry ∈ cached.entries, selectEntry cached chunk ledgerIndex = .ok entry ∧
      entry.ledgerIndex = ledgerIndex := by
  have hindex : (cached.entries.map LedgerFixtureEntry.ledgerIndex)[ledgerIndex - chunk.first]?
      = some ledgerIndex := by
    rw [hcached, hdescriptor.1, hdescriptor.2, List.getElem?_range' (by omega)]
    congr 1
    omega
  rw [List.getElem?_map, Option.map_eq_some_iff] at hindex
  obtain ⟨entry, hentry, hindex⟩ := hindex
  refine ⟨entry, List.mem_of_getElem? hentry, ?_, hindex⟩
  have hcheck : check (entry.ledgerIndex == ledgerIndex) .integrityFailed
      (js "fixture index entry is unavailable") = .ok () :=
    check_eq_ok.mpr (beq_iff_eq.mpr hindex)
  unfold selectEntry
  rw [hentry]
  dsimp only
  rw [hcheck]
  rfl

theorem ledgerIndex_of_readLedger {files : Files} {directory : List JsString}
    {entry : LedgerFixtureEntry} {ledger : SourceLedger}
    (h : readLedger P Z files directory entry = .ok ledger) :
    ledger.ledgerIndex = entry.ledgerIndex := by
  simp only [readLedger, bind_eq_ok, check_eq_ok, exists_const, Bool.and_eq_true, beq_iff_eq,
    pure_eq_ok] at h
  obtain ⟨_, -, _, -, -, _, -, ⟨⟨⟨hindex, -⟩, -⟩, -⟩, rfl⟩ := h
  exact hindex

/-! ## The three parts together -/

/-- The chunks of an accepted manifest. -/
theorem blocks_of_parseManifest {value : JsValue} {manifest : LedgerFixtureBundleManifest}
    (h : parseManifest P value = .ok manifest) :
    manifest.chunks.map bounds
      = blocks ledgerFixtureIndexEntriesPerChunk manifest.range.first manifest.range.last ∧
        manifest.range.first ≤ manifest.range.last := by
  simp only [parseManifest, bind_eq_ok, pure_eq_ok] at h
  obtain ⟨head, hhead, chunks, hchunks, tail, -, rfl⟩ := h
  have hle : head.range.first ≤ head.range.last := by
    simp only [parseManifestHead, bind_eq_ok, check_eq_ok, exactKeys_eq_ok, exists_const,
      pure_eq_ok] at hhead
    obtain ⟨_, -, -, -, _, -, -, _, -, -, -, _, -, _, -, -, _, -, -, _, -, _, -, hvalid, rfl⟩ :=
      hhead
    simp only [Bool.not_eq_true', Bool.or_eq_false_iff, decide_eq_false_iff_not] at hvalid
    exact Nat.le_of_not_lt hvalid.2
  exact ⟨bounds_of_parseIndex hle hchunks, hle⟩

/-- **The chunks of a bundle.**  Whatever the source and the files answer, the chunks of a capture
that returns are accepted, however the members of the index are ordered.  The chunks that are
accepted are the blocks of the range: every ledger of the range is in a chunk, and in one only.  In
every state of the cache a ledger of the range is looked up in the chunk and by the entry that hold
it. -/
theorem chunkLayout (P : Platform) (Z : Gzip) :
    (∀ directory profileInput last tr range chunks,
      Run Program.Step (captureIndex P Z directory profileInput last) tr
          (.done (.ok (range, chunks))) →
        range.last = last ∧
        (∀ index : JsValue, index.canon = (indexJs chunks).canon →
          parseIndex range index = .ok chunks) ∧
        ∀ (value : JsValue) (head : ManifestHead) (tail : ManifestTail),
          (value.get (js "index")).canon = (indexJs chunks).canon →
          parseManifestHead value = .ok head → head.range = range →
          parseManifestTail P value range = .ok tail →
            ∃ manifest, parseManifest P value = .ok manifest ∧ manifest.range = range ∧
              manifest.chunks = chunks) ∧
    (∀ value manifest, parseManifest P value = .ok manifest →
      manifest.chunks.map bounds
          = blocks ledgerFixtureIndexEntriesPerChunk manifest.range.first manifest.range.last ∧
        (∀ i, manifest.range.first ≤ i ∧ i ≤ manifest.range.last ↔
          ∃ chunk ∈ manifest.chunks, chunk.first ≤ i ∧ i ≤ chunk.last) ∧
        ∀ (i j k : ℕ) (c d : LedgerFixtureIndexChunk), manifest.chunks[j]? = some c →
          manifest.chunks[k]? = some d → c.first ≤ i → i ≤ c.last → d.first ≤ i → i ≤ d.last →
            j = k) ∧
    ∀ value manifest directory tr cache files i, parseManifest P value = .ok manifest →
      Run (GetLedgerStep P Z manifest directory) none tr cache →
      manifest.range.first ≤ i → i ≤ manifest.range.last →
        ∃ chunk ∈ manifest.chunks, selectChunk manifest i = .ok chunk ∧
          chunk.first ≤ i ∧ i ≤ chunk.last ∧
          (∀ e, loadChunk P Z files directory cache chunk = .error e →
            (getLedger P Z manifest directory files cache i).1 = .error e) ∧
          (∀ cached, loadChunk P Z files directory cache chunk = .ok cached →
            ∃ entry ∈ cached.entries, selectEntry cached chunk i = .ok entry ∧
              entry.ledgerIndex = i ∧
              (getLedger P Z manifest directory files cache i).1
                = readLedger P Z files directory entry) ∧
          ∀ ledger, (getLedger P Z manifest directory files cache i).1 = .ok ledger →
            ledger.ledgerIndex = i := by
  have hpos : 0 < ledgerFixtureIndexEntriesPerChunk := by decide
  refine ⟨?_, ?_, ?_⟩
  · intro directory profileInput last tr range chunks hrun
    obtain ⟨hlast, hne, hle, hmax, hblocks, hdigests⟩ := returns_captureIndex.of_run hrun
    have hparse : ∀ index : JsValue, index.canon = (indexJs chunks).canon →
        parseIndex range index = .ok chunks := fun index =>
      parseIndex_of_canon hne hle hmax hdigests hblocks
    refine ⟨hlast, hparse, ?_⟩
    rintro value head tail hindex hhead rfl htail
    have hmanifest : parseManifest P value = .ok ⟨head.capturedAt, tail.profile,
        tail.profileFileSha256, head.primaryOperator, head.secondaryOperator, tail.sourceTips,
        head.range, chunks⟩ := by
      simp only [parseManifest, bind_eq_ok, pure_eq_ok]
      exact ⟨head, hhead, chunks, hparse _ hindex, tail, htail, rfl⟩
    exact ⟨_, hmanifest, rfl, rfl⟩
  · intro value manifest hmanifest
    obtain ⟨hblocks, hle⟩ := blocks_of_parseManifest hmanifest
    refine ⟨hblocks, fun i => ⟨fun h => ?_, ?_⟩, ?_⟩
    · obtain ⟨chunk, hchunk, -, hi⟩ := exists_selectChunk hblocks h.1 h.2
      exact ⟨chunk, hchunk, hi⟩
    · rintro ⟨chunk, hchunk, hfirst, hlast⟩
      have hmem := List.mem_map_of_mem (f := bounds) hchunk
      rw [hblocks] at hmem
      obtain ⟨hge, -, hend, -⟩ := of_mem_blocks hpos hle hmem
      exact ⟨hge.trans hfirst, hlast.trans hend⟩
    · intro i j k c d hc hd hcfirst hclast hdfirst hdlast
      have hposition : ∀ (l : ℕ) (e : LedgerFixtureIndexChunk), manifest.chunks[l]? = some e →
          e.first ≤ i → i ≤ e.last →
            l = (i - manifest.range.first) / ledgerFixtureIndexEntriesPerChunk := by
        intro l e he hfirst hlast
        have hblock : (blocks ledgerFixtureIndexEntriesPerChunk manifest.range.first
            manifest.range.last)[l]? = some (bounds e) := by
          rw [← hblocks, List.getElem?_map, he]
          rfl
        exact eq_div_of_getElem?_blocks hpos hblock hfirst hlast
      rw [hposition j c hc hcfirst hclast, hposition k d hd hdfirst hdlast]
  · intro value manifest directory tr cache files i hmanifest hrun hfirst hlast
    obtain ⟨hblocks, -⟩ := blocks_of_parseManifest hmanifest
    obtain ⟨chunk, hchunk, hselect, hge, hle⟩ := exists_selectChunk hblocks hfirst hlast
    have herror : ∀ e, loadChunk P Z files directory cache chunk = .error e →
        (getLedger P Z manifest directory files cache i).1 = .error e := by
      intro e hload
      unfold getLedger
      rw [hselect]
      dsimp only
      rw [hload]
    have hload : ∀ cached, loadChunk P Z files directory cache chunk = .ok cached →
        ∃ entry ∈ cached.entries, selectEntry cached chunk i = .ok entry ∧
          entry.ledgerIndex = i ∧ (getLedger P Z manifest directory files cache i).1
            = readLedger P Z files directory entry := by
      intro cached hload
      obtain ⟨haligned, hdescriptor⟩ := isAligned_of_loadChunk (isAligned_of_run hrun) hload
      obtain ⟨entry, hentry, hfound, hindex⟩ := exists_selectEntry haligned hdescriptor hge hle
      refine ⟨entry, hentry, hfound, hindex, ?_⟩
      unfold getLedger
      rw [hselect]
      dsimp only
      rw [hload]
      dsimp only
      rw [hfound]
      rfl
    refine ⟨chunk, hchunk, hselect, hge, hle, herror, hload, fun ledger hledger => ?_⟩
    cases hcached : loadChunk P Z files directory cache chunk with
    | error e =>
        rw [herror e hcached] at hledger
        cases hledger
    | ok cached =>
        obtain ⟨entry, -, -, hindex, hget⟩ := hload cached hcached
        rw [hget] at hledger
        rw [ledgerIndex_of_readLedger hledger, hindex]

/-! ## A sample -/

/-- A compression that changes nothing. -/
def Gzip.stored : Gzip where
  gzipSync := id
  gunzipSync := fun maximumBytes bytes => if bytes.length ≤ maximumBytes then some bytes else none

/-- A profile that is activated at the fifth ledger. -/
def sampleFixtureProfile : NetworkProfile where
  profileId := js "local-1"
  networkId := 1
  requiredAmendment := List.replicate 64 0x30
  registryAddress := js "rrrrrrrrrrrrrrrrrrrrrhoLvTp"
  activationLedgerIndex := 5
  activationLedgerHash := List.replicate 64 0x30

/-- A ledger without transactions whose hashes are all the same. -/
def sampleFixtureLedger (ledgerIndex : ℕ) : SourceLedger where
  ledgerIndex := ledgerIndex
  ledgerHash := List.replicate 64 0x30
  parentHash := List.replicate 64 0x30
  closeTime := 0
  transactionRoot := List.replicate 64 0x30
  transactions := []
  accountRoot := List.replicate 64 0x30
  parentCloseTime := 0
  closeTimeResolution := 10
  closeFlags := 0
  totalCoins := js "100"

/-- A source that has every ledger, and files that can be written. -/
def sampleCaptureAnswer : (c : CaptureCall) → c.Answer
  | .getLedger ledgerIndex => some (sampleFixtureLedger ledgerIndex)
  | .writeFile .. => true

/-- What a program has returned. -/
def returned {α : Type} : Capture α → Option α
  | .done (.ok a) => some a
  | _ => none

theorem done_of_returned {α : Type} {p : Capture α} {a : α} (h : returned p = some a) :
    p = .done (.ok a) := by
  unfold returned at h
  split at h
  · cases h
    rfl
  · cases h

/-- The chunk of the sample. -/
def sampleChunk : LedgerFixtureIndexChunk where
  first := 5
  last := 6
  contentSha256 := List.replicate 64 0x30
  compressedSha256 := List.replicate 64 0x30

/-- The capture of two ledgers makes one chunk, and the index is accepted. -/
theorem chunkLayout_sample : ∃ tr,
    Run Program.Step
        (captureIndex Platform.sample .stored [] (Sdk.profileJs sampleFixtureProfile) 6) tr
        (.done (.ok (⟨5, 6⟩, [sampleChunk]))) ∧
      parseIndex ⟨5, 6⟩ (indexJs [sampleChunk]) = .ok [sampleChunk] := by
  have hrun := Program.run_advance sampleCaptureAnswer 9
    (captureIndex Platform.sample .stored [] (Sdk.profileJs sampleFixtureProfile) 6)
  have hreturned : returned (Program.advance sampleCaptureAnswer 9 (captureIndex Platform.sample
      .stored [] (Sdk.profileJs sampleFixtureProfile) 6)).2 = some (⟨5, 6⟩, [sampleChunk]) := by
    decide +kernel
  rw [done_of_returned hreturned] at hrun
  exact ⟨_, hrun, ((chunkLayout Platform.sample .stored).1 _ _ _ _ _ _ hrun).2.1 _ rfl⟩

end Fixture
end Indexer
end Xcs
