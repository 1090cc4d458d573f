import Xcs.Js.Text

/-!
# UTF-8 there and back

Encoding and decoding are inverse on well-formed strings: a decoded text is well formed and encodes
to the bytes it was read from, and the encoding of a well-formed string decodes to it.  Both are
read off one character at a time.  A scalar value has one form in code units and one in bytes;
`codePoints_append` and `decodeUtf8_append` take the one or the other off the front.

* `decodeUtf8_eq_some` is the first half and `decodeUtf8_encodeUtf8` the second.
* `hexToBytes_bytesToHex` and `bytesToHex_of_hexToBytes` are the same for hexadecimal text, where
  letters are folded to lower case.
-/

namespace Xcs
namespace Js

/-- The code points that are no surrogates. -/
def IsScalar (c : ℕ) : Prop :=
  c < 0xd800 ∨ 0xe000 ≤ c ∧ c < 0x110000

theorem toNat_toUInt8 {n : ℕ} (h : n < 256) : n.toUInt8.toNat = n := by
  show n % 2 ^ 8 = n
  omega

theorem toNat_toUInt16 {n : ℕ} (h : n < 65536) : n.toUInt16.toNat = n := by
  show n % 2 ^ 16 = n
  omega

theorem eq_toUInt8 {b : UInt8} {n : ℕ} (h : n = b.toNat) : n.toUInt8 = b := by
  rw [← UInt8.toNat_inj, toNat_toUInt8 (by rw [h]; exact b.toNat_lt), h]

theorem eq_toUInt16 {u : CodeUnit} {n : ℕ} (h : n = u.toNat) : n.toUInt16 = u := by
  rw [← UInt16.toNat_inj, toNat_toUInt16 (by rw [h]; exact u.toNat_lt), h]

theorem isHighSurrogate_iff {u : CodeUnit} :
    isHighSurrogate u = true ↔ 0xd800 ≤ u.toNat ∧ u.toNat ≤ 0xdbff := by
  simp [isHighSurrogate, UInt16.le_iff_toNat_le]

theorem isLowSurrogate_iff {u : CodeUnit} :
    isLowSurrogate u = true ↔ 0xdc00 ≤ u.toNat ∧ u.toNat ≤ 0xdfff := by
  simp [isLowSurrogate, UInt16.le_iff_toNat_le]

/-! ## Code units -/

/-- A unit that is no surrogate is a code point of its own. -/
theorem codePoints_cons {u : CodeUnit} (hhigh : isHighSurrogate u = false)
    (hlow : isLowSurrogate u = false) (s : JsString) :
    codePoints (u :: s) = u.toNat :: codePoints s := by
  cases s with
  | nil => simp [codePoints, hhigh, hlow]
  | cons v s => simp [codePoints, hhigh, hlow]

/-- An ASCII text has a byte for each unit. -/
theorem length_encodeUtf8_of_ascii {s : JsString} (h : ∀ u ∈ s, u.toNat < 0x80) :
    (encodeUtf8 s).length = s.length := by
  induction s with
  | nil => rfl
  | cons u s ih =>
      have hu := h u List.mem_cons_self
      have hhigh : isHighSurrogate u = false := by
        rw [← Bool.not_eq_true, isHighSurrogate_iff]
        omega
      have hlow : isLowSurrogate u = false := by
        rw [← Bool.not_eq_true, isLowSurrogate_iff]
        omega
      have ih := ih fun v hv => h v (List.mem_cons_of_mem u hv)
      rw [encodeUtf8] at ih ⊢
      rw [codePoints_cons hhigh hlow, List.flatMap_cons, List.length_append, ih, encodeCodePoint,
        if_pos hu, List.length_singleton, List.length_cons, Nat.add_comm]

/-- A scalar value below U+10000 is one unit that is no surrogate. -/
theorem not_surrogate_toUInt16 {c : ℕ} (h : IsScalar c) (hc : c < 0x10000) :
    isHighSurrogate c.toUInt16 = false ∧ isLowSurrogate c.toUInt16 = false := by
  unfold IsScalar at h
  rw [← Bool.not_eq_true, ← Bool.not_eq_true, isHighSurrogate_iff, isLowSurrogate_iff,
    toNat_toUInt16 (by omega)]
  omega

/-- The two units of a scalar value from U+10000 on. -/
theorem surrogates_toUInt16 {c : ℕ} (hc : 0x10000 ≤ c) (hc' : c < 0x110000) :
    isHighSurrogate (0xd800 + (c - 0x10000) / 0x400).toUInt16 = true ∧
      isLowSurrogate (0xdc00 + (c - 0x10000) % 0x400).toUInt16 = true := by
  rw [isHighSurrogate_iff, isLowSurrogate_iff, toNat_toUInt16 (by omega),
    toNat_toUInt16 (by omega)]
  omega

/-- **A scalar value in front of a string.** -/
theorem codePoints_append {c : ℕ} (h : IsScalar c) (s : JsString) :
    codePoints (encodeUtf16 c ++ s) = c :: codePoints s := by
  unfold encodeUtf16
  by_cases hc : c < 0x10000
  · obtain ⟨hhigh, hlow⟩ := not_surrogate_toUInt16 h hc
    rw [if_pos hc]
    show codePoints (c.toUInt16 :: s) = _
    rw [codePoints_cons hhigh hlow, toNat_toUInt16 hc]
  · unfold IsScalar at h
    obtain ⟨hhigh, hlow⟩ := @surrogates_toUInt16 c (by omega) (by omega)
    rw [if_neg hc]
    show codePoints (_ :: _ :: s) = _
    rw [codePoints, if_pos hhigh, if_pos hlow, toNat_toUInt16 (by omega),
      toNat_toUInt16 (by omega)]
    refine congrArg (· :: codePoints s) ?_
    omega

theorem isWellFormed_append {c : ℕ} (h : IsScalar c) (s : JsString) :
    isWellFormed (encodeUtf16 c ++ s) = isWellFormed s := by
  unfold encodeUtf16
  by_cases hc : c < 0x10000
  · obtain ⟨hhigh, hlow⟩ := not_surrogate_toUInt16 h hc
    rw [if_pos hc]
    show isWellFormed (c.toUInt16 :: s) = _
    rw [isWellFormed_cons_of_not_high hhigh, hlow]
    rfl
  · unfold IsScalar at h
    obtain ⟨hhigh, hlow⟩ := @surrogates_toUInt16 c (by omega) (by omega)
    rw [if_neg hc]
    show isWellFormed (_ :: _ :: s) = _
    rw [isWellFormed, if_pos hhigh, hlow]
    rfl

/-- The code point of a pair of surrogates, and the pair again. -/
theorem encodeUtf16_pair {u v : CodeUnit} (hu : isHighSurrogate u = true)
    (hv : isLowSurrogate v = true) :
    IsScalar (0x10000 + (u.toNat - 0xd800) * 0x400 + (v.toNat - 0xdc00)) ∧
      encodeUtf16 (0x10000 + (u.toNat - 0xd800) * 0x400 + (v.toNat - 0xdc00)) = [u, v] := by
  rw [isHighSurrogate_iff] at hu
  rw [isLowSurrogate_iff] at hv
  refine ⟨by unfold IsScalar; omega, ?_⟩
  unfold encodeUtf16
  rw [if_neg (by omega)]
  refine congrArg₂ (fun a b => [a, b]) (eq_toUInt16 ?_) (eq_toUInt16 ?_)
  · omega
  · omega

theorem encodeUtf16_unit {u : CodeUnit} (hhigh : isHighSurrogate u = false)
    (hlow : isLowSurrogate u = false) :
    IsScalar u.toNat ∧ encodeUtf16 u.toNat = [u] := by
  rw [← Bool.not_eq_true, isHighSurrogate_iff] at hhigh
  rw [← Bool.not_eq_true, isLowSurrogate_iff] at hlow
  have hlt := u.toNat_lt
  refine ⟨by unfold IsScalar; omega, ?_⟩
  unfold encodeUtf16
  rw [if_pos (by omega), eq_toUInt16 rfl]

/-- **A well-formed string is its code points**, all of them scalar values. -/
theorem flatMap_codePoints {s : JsString} (h : isWellFormed s = true) :
    (codePoints s).flatMap encodeUtf16 = s ∧ ∀ c ∈ codePoints s, IsScalar c := by
  fun_induction codePoints s with
  | case1 => exact ⟨rfl, fun c hc => absurd hc List.not_mem_nil⟩
  | case2 u hu =>
      rw [isWellFormed, Bool.and_eq_true, Bool.not_eq_true', Bool.not_eq_true'] at h
      rw [h.1, h.2] at hu
      cases hu
  | case3 u hu =>
      rw [Bool.or_eq_true, not_or, Bool.not_eq_true, Bool.not_eq_true] at hu
      obtain ⟨hscalar, hunit⟩ := encodeUtf16_unit hu.1 hu.2
      refine ⟨?_, fun c hc => ?_⟩
      · rw [List.flatMap_cons, hunit]
        rfl
      · rw [List.mem_singleton.mp hc]
        exact hscalar
  | case4 u v rest hu hv ih =>
      rw [isWellFormed, if_pos hu, Bool.and_eq_true] at h
      obtain ⟨hrest, hall⟩ := ih h.2
      obtain ⟨hscalar, hpair⟩ := encodeUtf16_pair hu hv
      refine ⟨?_, List.forall_mem_cons.mpr ⟨hscalar, hall⟩⟩
      rw [List.flatMap_cons, hpair, hrest]
      rfl
  | case5 u v rest hu hv ih =>
      rw [isWellFormed, if_pos hu, Bool.and_eq_true] at h
      exact absurd h.1 hv
  | case6 u v rest hu hv ih =>
      rw [isWellFormed, if_neg hu, hv] at h
      cases h
  | case7 u v rest hu hv ih =>
      rw [isWellFormed, if_neg hu, Bool.and_eq_true] at h
      obtain ⟨hrest, hall⟩ := ih h.2
      obtain ⟨hscalar, hunit⟩ :=
        encodeUtf16_unit ((Bool.not_eq_true _).mp hu) ((Bool.not_eq_true _).mp hv)
      refine ⟨?_, List.forall_mem_cons.mpr ⟨hscalar, hall⟩⟩
      rw [List.flatMap_cons, hunit, hrest]
      rfl

/-! ## Bytes -/

theorem isContinuation_iff {b : UInt8} :
    isContinuation b = true ↔ 0x80 ≤ b.toNat ∧ b.toNat ≤ 0xbf := by
  simp [isContinuation, UInt8.le_iff_toNat_le]

/-- The continuation byte of six bits, and the six bits of it. -/
theorem continuation_toUInt8 {n : ℕ} (h : n < 0x40) :
    (0x80 + n).toUInt8.toNat = 0x80 + n ∧ isContinuation (0x80 + n).toUInt8 = true ∧
      continuationBits (0x80 + n).toUInt8 = n := by
  have hn : (0x80 + n).toUInt8.toNat = 0x80 + n := toNat_toUInt8 (by omega)
  refine ⟨hn, isContinuation_iff.mpr (by omega), ?_⟩
  unfold continuationBits
  omega

section Decode

variable {a b c d : UInt8} (rest : List UInt8)

theorem decodeUtf8_one (ha : a.toNat < 0x80) :
    decodeUtf8 (a :: rest) = (decodeUtf8 rest).map (a.toUInt16 :: ·) := by
  rw [decodeUtf8.eq_def (a :: rest)]
  exact if_pos (UInt8.lt_iff_toNat_lt.mpr ha)

theorem decodeUtf8_two (ha : 0xc2 ≤ a.toNat ∧ a.toNat ≤ 0xdf) (hb : isContinuation b = true) :
    decodeUtf8 (a :: b :: rest) = (decodeUtf8 rest).map
      (encodeUtf16 ((a.toNat - 0xc0) * 0x40 + continuationBits b) ++ ·) := by
  rw [decodeUtf8.eq_def (a :: b :: rest)]
  dsimp only
  rw [if_neg, if_pos, if_pos hb]
  · simp only [Bool.and_eq_true, decide_eq_true_eq, UInt8.le_iff_toNat_le, UInt8.reduceToNat]
    exact ha
  · simp only [UInt8.lt_iff_toNat_lt, UInt8.reduceToNat]
    omega

theorem decodeUtf8_three (ha : 0xe0 ≤ a.toNat ∧ a.toNat ≤ 0xef) (hb : isContinuation b = true)
    (hc : isContinuation c = true) (hlow : a.toNat = 0xe0 → 0xa0 ≤ b.toNat)
    (hhigh : a.toNat = 0xed → b.toNat ≤ 0x9f) :
    decodeUtf8 (a :: b :: c :: rest) = (decodeUtf8 rest).map
      (encodeUtf16 ((a.toNat - 0xe0) * 0x1000 + continuationBits b * 0x40
        + continuationBits c) ++ ·) := by
  rw [decodeUtf8.eq_def (a :: b :: c :: rest)]
  dsimp only
  rw [if_neg, if_neg, if_pos, if_pos]
  · simp only [Bool.and_eq_true, Bool.or_eq_true, bne_iff_ne, decide_eq_true_eq,
      UInt8.le_iff_toNat_le, UInt8.reduceToNat, ne_eq, ← UInt8.toNat_inj]
    exact ⟨⟨⟨hb, hc⟩, by tauto⟩, by tauto⟩
  · simp only [Bool.and_eq_true, decide_eq_true_eq, UInt8.le_iff_toNat_le, UInt8.reduceToNat]
    exact ha
  · simp only [Bool.and_eq_true, decide_eq_true_eq, UInt8.le_iff_toNat_le, UInt8.reduceToNat]
    omega
  · simp only [UInt8.lt_iff_toNat_lt, UInt8.reduceToNat]
    omega

theorem decodeUtf8_four (ha : 0xf0 ≤ a.toNat ∧ a.toNat ≤ 0xf4) (hb : isContinuation b = true)
    (hc : isContinuation c = true) (hd : isContinuation d = true)
    (hlow : a.toNat = 0xf0 → 0x90 ≤ b.toNat) (hhigh : a.toNat = 0xf4 → b.toNat ≤ 0x8f) :
    decodeUtf8 (a :: b :: c :: d :: rest) = (decodeUtf8 rest).map
      (encodeUtf16 ((a.toNat - 0xf0) * 0x40000 + continuationBits b * 0x1000
        + continuationBits c * 0x40 + continuationBits d) ++ ·) := by
  rw [decodeUtf8.eq_def (a :: b :: c :: d :: rest)]
  dsimp only
  rw [if_neg, if_neg, if_neg, if_pos, if_pos]
  · simp only [Bool.and_eq_true, Bool.or_eq_true, bne_iff_ne, decide_eq_true_eq,
      UInt8.le_iff_toNat_le, UInt8.reduceToNat, ne_eq, ← UInt8.toNat_inj]
    exact ⟨⟨⟨⟨hb, hc⟩, hd⟩, by tauto⟩, by tauto⟩
  · simp only [Bool.and_eq_true, decide_eq_true_eq, UInt8.le_iff_toNat_le, UInt8.reduceToNat]
    exact ha
  · simp only [Bool.and_eq_true, decide_eq_true_eq, UInt8.le_iff_toNat_le, UInt8.reduceToNat]
    omega
  · simp only [Bool.and_eq_true, decide_eq_true_eq, UInt8.le_iff_toNat_le, UInt8.reduceToNat]
    omega
  · simp only [UInt8.lt_iff_toNat_lt, UInt8.reduceToNat]
    omega

end Decode

/-- **A scalar value in front of bytes.** -/
theorem decodeUtf8_append {c : ℕ} (h : IsScalar c) (bytes : List UInt8) :
    decodeUtf8 (encodeCodePoint c ++ bytes) = (decodeUtf8 bytes).map (encodeUtf16 c ++ ·) := by
  unfold IsScalar at h
  unfold encodeCodePoint
  by_cases h₁ : c < 0x80
  · have ha : c.toUInt8.toNat = c := toNat_toUInt8 (by omega)
    have hunit : c.toUInt8.toUInt16 = c.toUInt16 := by
      rw [← UInt16.toNat_inj, toNat_toUInt16 (by omega), UInt8.toNat_toUInt16, ha]
    rw [if_pos h₁]
    show decodeUtf8 (c.toUInt8 :: bytes) = _
    rw [decodeUtf8_one bytes (by omega), hunit, encodeUtf16, if_pos (by omega)]
    rfl
  by_cases h₂ : c < 0x800
  · have ha : (0xc0 + c / 0x40).toUInt8.toNat = 0xc0 + c / 0x40 := toNat_toUInt8 (by omega)
    obtain ⟨-, hb, hbits⟩ := @continuation_toUInt8 (c % 0x40) (by omega)
    rw [if_neg h₁, if_pos h₂]
    show decodeUtf8 (_ :: _ :: bytes) = _
    have hc : (0xc0 + c / 0x40 - 0xc0) * 0x40 + c % 0x40 = c := by omega
    rw [decodeUtf8_two bytes (by omega) hb, hbits, ha, hc]
  by_cases h₃ : c < 0x10000
  · have ha : (0xe0 + c / 0x1000).toUInt8.toNat = 0xe0 + c / 0x1000 := toNat_toUInt8 (by omega)
    obtain ⟨hb', hb, hbits⟩ := @continuation_toUInt8 (c / 0x40 % 0x40) (by omega)
    obtain ⟨-, hc, hbits'⟩ := @continuation_toUInt8 (c % 0x40) (by omega)
    rw [if_neg h₁, if_neg h₂, if_pos h₃]
    show decodeUtf8 (_ :: _ :: _ :: bytes) = _
    have hpoint : (0xe0 + c / 0x1000 - 0xe0) * 0x1000 + c / 0x40 % 0x40 * 0x40 + c % 0x40 = c := by
      omega
    rw [decodeUtf8_three bytes (by omega) hb hc (by omega) (by omega), hbits, hbits', ha, hpoint]
  · have ha : (0xf0 + c / 0x40000).toUInt8.toNat = 0xf0 + c / 0x40000 := toNat_toUInt8 (by omega)
    obtain ⟨hb', hb, hbits⟩ := @continuation_toUInt8 (c / 0x1000 % 0x40) (by omega)
    obtain ⟨-, hc, hbits'⟩ := @continuation_toUInt8 (c / 0x40 % 0x40) (by omega)
    obtain ⟨-, hd, hbits''⟩ := @continuation_toUInt8 (c % 0x40) (by omega)
    rw [if_neg h₁, if_neg h₂, if_neg h₃]
    show decodeUtf8 (_ :: _ :: _ :: _ :: bytes) = _
    have hpoint : (0xf0 + c / 0x40000 - 0xf0) * 0x40000 + c / 0x1000 % 0x40 * 0x1000
        + c / 0x40 % 0x40 * 0x40 + c % 0x40 = c := by
      omega
    rw [decodeUtf8_four bytes (by omega) hb hc hd (by omega) (by omega), hbits, hbits', hbits'', ha,
      hpoint]

/-- **Decoding undoes encoding.** -/
theorem decodeUtf8_encodeUtf8 {s : JsString} (h : isWellFormed s = true) :
    decodeUtf8 (encodeUtf8 s) = some s := by
  obtain ⟨hs, hscalar⟩ := flatMap_codePoints h
  have hdecode : ∀ points : List ℕ, (∀ c ∈ points, IsScalar c) →
      decodeUtf8 (points.flatMap encodeCodePoint) = some (points.flatMap encodeUtf16) := by
    intro points hpoints
    induction points with
    | nil => rfl
    | cons c points ih =>
        rw [List.flatMap_cons, List.flatMap_cons, decodeUtf8_append (hpoints c List.mem_cons_self),
          ih fun d hd => hpoints d (List.mem_cons_of_mem c hd)]
        rfl
  unfold encodeUtf8
  rw [hdecode _ hscalar, hs]

/-- The scalar value a text starts with, and its bytes. -/
theorem decodeUtf8_cons {a : UInt8} {rest : List UInt8} {s : JsString}
    (h : decodeUtf8 (a :: rest) = some s) :
    ∃ c rest' s', IsScalar c ∧ a :: rest = encodeCodePoint c ++ rest' ∧
      decodeUtf8 rest' = some s' ∧ s = encodeUtf16 c ++ s' := by
  have ha := a.toNat_lt
  rw [decodeUtf8.eq_def (a :: rest)] at h
  dsimp only at h
  split_ifs at h with h₁ h₂ h₃ h₄
  · obtain ⟨s', hs', rfl⟩ := Option.map_eq_some_iff.mp h
    simp only [UInt8.lt_iff_toNat_lt, UInt8.reduceToNat] at h₁
    refine ⟨a.toNat, rest, s', Or.inl (by omega), ?_, hs', ?_⟩
    · rw [encodeCodePoint, if_pos h₁, eq_toUInt8 rfl]
      rfl
    · rw [encodeUtf16, if_pos (by omega)]
      refine congrArg (· :: s') ?_
      rw [← UInt16.toNat_inj, UInt8.toNat_toUInt16, toNat_toUInt16 (by omega)]
  · simp only [Bool.and_eq_true, decide_eq_true_eq, UInt8.le_iff_toNat_le,
      UInt8.reduceToNat] at h₂
    split at h
    · rename_i b rest'
      split_ifs at h with hb
      obtain ⟨s', hs', rfl⟩ := Option.map_eq_some_iff.mp h
      rw [isContinuation_iff] at hb
      refine ⟨_, rest', s', Or.inl ?_, ?_, hs', rfl⟩
      · unfold continuationBits
        omega
      · unfold continuationBits encodeCodePoint
        rw [if_neg (by omega), if_pos (by omega)]
        simp only [List.cons_append, List.nil_append, List.cons.injEq]
        refine ⟨(eq_toUInt8 ?_).symm, (eq_toUInt8 ?_).symm, trivial⟩
        · omega
        · omega
    · cases h
  · simp only [Bool.and_eq_true, decide_eq_true_eq, UInt8.le_iff_toNat_le,
      UInt8.reduceToNat] at h₃
    split at h
    · rename_i b c rest'
      split_ifs at h with hbytes
      obtain ⟨s', hs', rfl⟩ := Option.map_eq_some_iff.mp h
      simp only [Bool.and_eq_true, Bool.or_eq_true, bne_iff_ne, decide_eq_true_eq,
        UInt8.le_iff_toNat_le, UInt8.reduceToNat, ne_eq, ← UInt8.toNat_inj,
        isContinuation_iff] at hbytes
      obtain ⟨⟨⟨hb, hc⟩, hlow⟩, hhigh⟩ := hbytes
      -- The bounds on the second byte exclude the overlong forms and the surrogates.
      refine ⟨_, rest', s', ?_, ?_, hs', rfl⟩
      · unfold IsScalar continuationBits
        omega
      · unfold continuationBits encodeCodePoint
        rw [if_neg (by omega), if_neg (by omega), if_pos (by omega)]
        simp only [List.cons_append, List.nil_append, List.cons.injEq]
        refine ⟨(eq_toUInt8 ?_).symm, (eq_toUInt8 ?_).symm, (eq_toUInt8 ?_).symm, trivial⟩
        · omega
        · omega
        · omega
    · cases h
  · simp only [Bool.and_eq_true, decide_eq_true_eq, UInt8.le_iff_toNat_le,
      UInt8.reduceToNat] at h₄
    split at h
    · rename_i b c d rest'
      split_ifs at h with hbytes
      obtain ⟨s', hs', rfl⟩ := Option.map_eq_some_iff.mp h
      simp only [Bool.and_eq_true, Bool.or_eq_true, bne_iff_ne, decide_eq_true_eq,
        UInt8.le_iff_toNat_le, UInt8.reduceToNat, ne_eq, ← UInt8.toNat_inj,
        isContinuation_iff] at hbytes
      obtain ⟨⟨⟨⟨hb, hc⟩, hd⟩, hlow⟩, hhigh⟩ := hbytes
      refine ⟨_, rest', s', Or.inr ?_, ?_, hs', rfl⟩
      · unfold continuationBits
        omega
      · unfold continuationBits encodeCodePoint
        rw [if_neg (by omega), if_neg (by omega), if_neg (by omega)]
        simp only [List.cons_append, List.nil_append, List.cons.injEq]
        refine ⟨(eq_toUInt8 ?_).symm, (eq_toUInt8 ?_).symm, (eq_toUInt8 ?_).symm,
          (eq_toUInt8 ?_).symm, trivial⟩
        · omega
        · omega
        · omega
        · omega
    · cases h

/-- **Encoding undoes decoding**, and what is decoded is well formed. -/
theorem decodeUtf8_eq_some {bytes : List UInt8} {s : JsString} (h : decodeUtf8 bytes = some s) :
    isWellFormed s = true ∧ encodeUtf8 s = bytes := by
  -- The induction is on the number of bytes; every character takes at least one.
  induction hn : bytes.length using Nat.strongRecOn generalizing bytes s with
  | ind n ih =>
      cases bytes with
      | nil =>
          cases h
          exact ⟨rfl, rfl⟩
      | cons a rest =>
          obtain ⟨c, rest', s', hscalar, hbytes, hs', rfl⟩ := decodeUtf8_cons h
          have hlength : 0 < (encodeCodePoint c).length := by
            unfold encodeCodePoint
            split_ifs <;> exact Nat.succ_pos _
          have hlt : rest'.length < n := by
            rw [← hn, hbytes, List.length_append]
            omega
          obtain ⟨hformed, hencode⟩ := ih rest'.length hlt hs' rfl
          refine ⟨(isWellFormed_append hscalar s').trans hformed, ?_⟩
          unfold encodeUtf8 at hencode ⊢
          rw [codePoints_append hscalar, List.flatMap_cons, hencode, hbytes]

/-! ## Hexadecimal -/

/-- The digits of a byte. -/
theorem hexToBytes_bytesToHex (bytes : List UInt8) :
    hexToBytes (bytesToHex bytes) = some bytes := by
  induction bytes with
  | nil => rfl
  | cons b bytes ih =>
      have hb := b.toNat_lt
      show hexToBytes (hexDigit (b.toNat / 16) :: hexDigit (b.toNat % 16) :: bytesToHex bytes) = _
      rw [hexToBytes, hexValue_hexDigit _ (by omega), hexValue_hexDigit _ (by omega), ih]
      have hdigits : (b.toNat / 16 * 16 + b.toNat % 16).toUInt8 = b := eq_toUInt8 (by omega)
      show some ((b.toNat / 16 * 16 + b.toNat % 16).toUInt8 :: bytes) = _
      rw [hdigits]

/-- A digit of either case is the lowercase digit of its value. -/
theorem hexValue_eq_some {u : CodeUnit} {n : ℕ} (h : hexValue u = some n) :
    n < 16 ∧ hexDigit n = if 0x41 ≤ u && u ≤ 0x5a then u + 0x20 else u := by
  unfold hexValue at h
  simp only [Bool.and_eq_true, decide_eq_true_eq, UInt16.le_iff_toNat_le,
    UInt16.reduceToNat] at h ⊢
  split_ifs at h with h₁ h₂ h₃
  · obtain rfl := Option.some.inj h
    refine ⟨by omega, ?_⟩
    rw [if_neg (by omega), hexDigit, if_pos (by omega)]
    exact eq_toUInt16 (by omega)
  · obtain rfl := Option.some.inj h
    refine ⟨by omega, ?_⟩
    rw [if_pos (by omega), hexDigit, if_neg (by omega)]
    refine eq_toUInt16 ?_
    rw [UInt16.toNat_add]
    simp only [UInt16.reduceToNat]
    omega
  · obtain rfl := Option.some.inj h
    refine ⟨by omega, ?_⟩
    rw [if_neg (by omega), hexDigit, if_neg (by omega)]
    exact eq_toUInt16 (by omega)

/-- A digit has the same value in lowercase. -/
theorem hexValue_toLower (u : CodeUnit) :
    hexValue (if 0x41 ≤ u && u ≤ 0x5a then u + 0x20 else u) = hexValue u := by
  unfold hexValue
  simp only [Bool.and_eq_true, decide_eq_true_eq, UInt16.le_iff_toNat_le, UInt16.reduceToNat]
  by_cases h : 65 ≤ u.toNat ∧ u.toNat ≤ 90
  · have hadd : (u + 0x20).toNat = u.toNat + 32 := by
      rw [UInt16.toNat_add]
      simp only [UInt16.reduceToNat]
      omega
    rw [if_pos h, hadd]
    split_ifs
    all_goals first
      | omega
      | exact congrArg some (by omega)
      | rfl
  · rw [if_neg h]

theorem hexToBytes_toLowerCase (s : JsString) : hexToBytes (toLowerCase s) = hexToBytes s := by
  fun_induction hexToBytes s with
  | case1 => rfl
  | case2 a => rfl
  | case3 a b rest x y bytes hrest hy hx ih =>
      have ha := hexValue_toLower a
      have hb := hexValue_toLower b
      unfold toLowerCase at ih ⊢
      rw [List.map_cons, List.map_cons, hexToBytes, ha, hb, ih, hx, hy, hrest]
  | case4 a b rest hnone ih =>
      have ha := hexValue_toLower a
      have hb := hexValue_toLower b
      unfold toLowerCase at ih ⊢
      rw [List.map_cons, List.map_cons, hexToBytes, ha, hb, ih]
      split
      · rename_i x y bytes hx hy hrest
        exact absurd hrest (hnone x y bytes hx hy)
      · rfl

/-- The bytes do not depend on the case of the digits. -/
theorem hexToBytes_congr {s t : JsString} (h : toLowerCase s = toLowerCase t) :
    hexToBytes s = hexToBytes t := by
  rw [← hexToBytes_toLowerCase, h, hexToBytes_toLowerCase]

theorem length_eq_of_toLowerCase_eq {s t : JsString} (h : toLowerCase s = toLowerCase t) :
    s.length = t.length := by
  rw [← length_toLowerCase s, h, length_toLowerCase]

theorem isSome_hexValue (u : CodeUnit) : (hexValue u).isSome = isHexDigit u := by
  unfold hexValue isHexDigit isLowerHexDigit
  split_ifs with h₁ h₂ h₃ <;> simp_all

/-- The texts that are read are the even runs of digits. -/
theorem isSome_hexToBytes (s : JsString) :
    (hexToBytes s).isSome = (s.length % 2 == 0 && s.all isHexDigit) := by
  fun_induction hexToBytes s with
  | case1 => rfl
  | case2 a => rfl
  | case3 a b rest x y bytes hrest hy hx ih =>
      have ha := isSome_hexValue a
      have hb := isSome_hexValue b
      rw [hx] at ha
      rw [hy] at hb
      rw [hrest] at ih
      rw [List.all_cons, List.all_cons, ← ha, ← hb, List.length_cons, List.length_cons,
        Nat.add_assoc, Nat.add_mod_right]
      exact ih
  | case4 a b rest hnone ih =>
      rw [List.all_cons, List.all_cons, ← isSome_hexValue a, ← isSome_hexValue b,
        List.length_cons, List.length_cons, Nat.add_assoc, Nat.add_mod_right]
      cases ha : hexValue a with
      | none => simp
      | some x =>
          cases hb : hexValue b with
          | none => simp
          | some y =>
              cases hrest : hexToBytes rest with
              | none =>
                  rw [hrest] at ih
                  exact ih
              | some bytes => exact absurd hrest (hnone x y bytes ha hb)

/-- Whether a text is a hash does not depend on the case of the digits. -/
theorem isHash_congr {s t : JsString} (h : toLowerCase s = toLowerCase t) :
    isHash s = isHash t := by
  have hlength := length_eq_of_toLowerCase_eq h
  have hdigits := isSome_hexToBytes s
  rw [hexToBytes_congr h, isSome_hexToBytes, hlength] at hdigits
  unfold isHash
  rw [hlength]
  by_cases heven : t.length = 64
  · rw [heven] at hdigits ⊢
    simpa using hdigits.symm
  · rw [beq_false_of_ne heven]
    rfl

/-- The bytes of a text of digits, as digits. -/
theorem bytesToHex_of_hexToBytes {s : JsString} {bytes : List UInt8}
    (h : hexToBytes s = some bytes) : bytesToHex bytes = toLowerCase s := by
  fun_induction hexToBytes s generalizing bytes with
  | case1 =>
      cases h
      rfl
  | case2 => cases h
  | case3 a b rest x y bytes' hrest hy hx ih =>
      obtain rfl := Option.some.inj h
      obtain ⟨hx16, hdx⟩ := hexValue_eq_some hx
      obtain ⟨hy16, hdy⟩ := hexValue_eq_some hy
      have hbyte : (x * 16 + y).toUInt8.toNat = x * 16 + y := toNat_toUInt8 (by omega)
      have hhigh : (x * 16 + y) / 16 = x := by omega
      have hlow : (x * 16 + y) % 16 = y := by omega
      show hexDigit ((x * 16 + y).toUInt8.toNat / 16) :: hexDigit ((x * 16 + y).toUInt8.toNat % 16)
        :: bytesToHex bytes' = _
      rw [hbyte, hhigh, hlow, hdx, hdy, ih hrest]
      rfl
  | case4 => cases h

end Js
end Xcs
