import Mathlib.Algebra.Order.Field.Power
import Mathlib.Algebra.Order.Floor.Ring
import Mathlib.Data.Int.Log
import Mathlib.Data.Rat.Floor
import Mathlib.Tactic.Linarith
import Mathlib.Tactic.LinearCombination
import Mathlib.Tactic.FieldSimp
import Mathlib.Tactic.Ring
import Mathlib.Tactic.NormNum
import Mathlib.Tactic.Positivity

/-!
# JavaScript numbers

A JavaScript number is a binary64 value.  The finite ones are rationals `m · 2^e` with
`|m| ≤ 2^53` and `-1074 ≤ e`, and `Double` is exactly that: a rational that binary64 rounding
leaves alone, so a value between two doubles cannot be built.

* `roundBinary64` rounds a rational to nearest, ties to even, with the subnormal spacing at the
  bottom; `roundBinary64_idem` and `roundBinary64_zpow` say which rationals it fixes.
* `JsNumber.ofRat` is the number a source text denotes: the rounded value, or an infinity when
  the rounded value does not fit.
* `natDigits` are the decimal digits of a natural, `ofDigits` reads them back.
* `shortestDecimal` is the digit choice of `Number::toString`: the fewest digits that round back
  to the number.  `roundBinary64_shortestDecimal` is the property every reader relies on, that
  the chosen decimal denotes the same number again.
-/

namespace Xcs
namespace Js

/-! ## Rounding -/

/-- Round to the nearest integer, a tie to the even one. -/
def roundHalfEven (q : ℚ) : ℤ :=
  let f := ⌊q⌋
  let r := q - f
  if r < 1 / 2 then f
  else if 1 / 2 < r then f + 1
  else if f % 2 = 0 then f else f + 1

@[simp] theorem roundHalfEven_intCast (z : ℤ) : roundHalfEven (z : ℚ) = z := by
  simp [roundHalfEven]

theorem roundHalfEven_le_floor_add_one (q : ℚ) :
    ⌊q⌋ ≤ roundHalfEven q ∧ roundHalfEven q ≤ ⌊q⌋ + 1 := by
  unfold roundHalfEven
  dsimp only
  split_ifs <;> omega

/-- Rounding does not leave an interval with integer ends. -/
theorem abs_roundHalfEven_le {q : ℚ} {b : ℤ} (h : |q| ≤ b) : |roundHalfEven q| ≤ b := by
  obtain ⟨hlo, hhi⟩ := abs_le.mp h
  obtain ⟨h1, h2⟩ := roundHalfEven_le_floor_add_one q
  have hfloor : -b ≤ ⌊q⌋ := Int.le_floor.mpr (by push_cast; exact hlo)
  rcases eq_or_lt_of_le hhi with rfl | hlt
  · rw [roundHalfEven_intCast, abs_le]
    constructor
    · have := Int.cast_le (R := ℚ).mp (show ((-b : ℤ) : ℚ) ≤ (b : ℤ) by push_cast; exact hlo)
      omega
    · exact le_rfl
  · have hceil : ⌊q⌋ < b := Int.floor_lt.mpr hlt
    rw [abs_le]
    constructor <;> omega

/-- Nor does it enter the interior of one. -/
theorem le_abs_roundHalfEven {q : ℚ} {b : ℤ} (h : b ≤ |q|) : b ≤ |roundHalfEven q| := by
  obtain ⟨h1, h2⟩ := roundHalfEven_le_floor_add_one q
  rcases le_abs.mp h with hpos | hneg
  · have hfloor : b ≤ ⌊q⌋ := Int.le_floor.mpr hpos
    exact le_abs.mpr (Or.inl (by omega))
  · refine le_abs.mpr (Or.inr ?_)
    have hle : q ≤ ((-b : ℤ) : ℚ) := by
      push_cast
      linarith
    rcases eq_or_lt_of_le hle with rfl | hlt
    · rw [roundHalfEven_intCast, neg_neg]
    · have hfloor : ⌊q⌋ < -b := Int.floor_lt.mpr hlt
      omega

/-- The exponent of the spacing of binary64 values around `q`: 53 significant bits, but never
below the subnormal spacing `2^-1074`. -/
def ulpExponent (q : ℚ) : ℤ :=
  max (-1074) (Int.log 2 |q| - 52)

theorem neg_1074_le_ulpExponent (q : ℚ) : -1074 ≤ ulpExponent q :=
  le_max_left _ _

/-- The significand of a rational: how many spacings it is away from zero, rounded. -/
def significand (q : ℚ) : ℤ :=
  roundHalfEven (q / 2 ^ ulpExponent q)

/-- Round to binary64, without an upper bound on the exponent. -/
def roundBinary64 (q : ℚ) : ℚ :=
  significand q * 2 ^ ulpExponent q

theorem abs_significand_le (q : ℚ) : |significand q| ≤ 2 ^ 53 := by
  have hpos : (0 : ℚ) < 2 ^ ulpExponent q := by positivity
  have hlog : |q| < (2 : ℚ) ^ (Int.log 2 |q| + 1) := by
    exact_mod_cast Int.lt_zpow_succ_log_self (b := 2) (by norm_num) |q|
  have hexp : Int.log 2 |q| + 1 ≤ ulpExponent q + 53 := by
    have := le_max_right (-1074) (Int.log 2 |q| - 52)
    unfold ulpExponent
    omega
  have hlt : |q| < (2 : ℚ) ^ (ulpExponent q + 53) :=
    lt_of_lt_of_le hlog (zpow_le_zpow_right₀ (by norm_num) hexp)
  refine abs_roundHalfEven_le ?_
  rw [abs_div, abs_of_pos hpos, div_le_iff₀ hpos]
  calc |q| ≤ (2 : ℚ) ^ (ulpExponent q + 53) := hlt.le
    _ = ((2 ^ 53 : ℤ) : ℚ) * 2 ^ ulpExponent q := by
        rw [zpow_add₀ (by norm_num)]
        push_cast
        ring

/-- An integer multiple of a spacing that is at least as fine as the one in force is fixed. -/
theorem roundBinary64_of_le {m e : ℤ} (h : ulpExponent ((m : ℚ) * 2 ^ e) ≤ e) :
    roundBinary64 ((m : ℚ) * 2 ^ e) = m * 2 ^ e := by
  set q := (m : ℚ) * 2 ^ e with hq
  have hint : q / 2 ^ ulpExponent q = ((m * 2 ^ (e - ulpExponent q).toNat : ℤ) : ℚ) := by
    rw [div_eq_iff (by positivity), hq]
    push_cast
    rw [mul_assoc, ← zpow_natCast, ← zpow_add₀ (by norm_num : (2 : ℚ) ≠ 0)]
    congr 2
    rw [← hq]
    omega
  rw [roundBinary64, significand, hint, roundHalfEven_intCast, ← hint,
    div_mul_cancel₀ _ (by positivity)]

/-- **The binary64 grid.**  Every `m · 2^e` with `|m| ≤ 2^53` and `-1074 ≤ e` is a fixed point of
rounding. -/
theorem roundBinary64_zpow {m e : ℤ} (hm : |m| ≤ 2 ^ 53) (he : -1074 ≤ e) :
    roundBinary64 ((m : ℚ) * 2 ^ e) = m * 2 ^ e := by
  rcases eq_or_ne m 0 with rfl | hm0
  · simp [roundBinary64, significand, roundHalfEven]
  have habs : |(m : ℚ) * 2 ^ e| = |m| * 2 ^ e := by
    rw [abs_mul, abs_of_pos (by positivity : (0 : ℚ) < 2 ^ e)]
    push_cast
    rfl
  have hpos : 0 < |(m : ℚ) * 2 ^ e| := by
    rw [habs]
    have : (0 : ℚ) < |m| := by exact_mod_cast abs_pos.mpr hm0
    positivity
  rcases eq_or_lt_of_le hm with hm53 | hlt
  · -- the boundary significand: the same value is `±2^52` spacings of the next binade
    have hval : (m : ℚ) * 2 ^ e = ((m / 2 : ℤ) : ℚ) * 2 ^ (e + 1) := by
      have h2 : m = 2 * (m / 2) := by
        rcases abs_eq (by norm_num) |>.mp hm53 with rfl | rfl <;> decide
      rw [zpow_add₀ (by norm_num)]
      nth_rewrite 1 [h2]
      push_cast
      ring
    have hlog : Int.log 2 |(m : ℚ) * 2 ^ e| < e + 54 := by
      rw [← Int.lt_zpow_iff_log_lt (by norm_num) hpos, habs, hm53]
      push_cast
      rw [zpow_add₀ (by norm_num : (2 : ℚ) ≠ 0), mul_comm]
      exact mul_lt_mul_of_pos_left (by norm_num) (by positivity)
    rw [hval]
    refine roundBinary64_of_le ?_
    rw [← hval, ulpExponent]
    omega
  · have hlog : Int.log 2 |(m : ℚ) * 2 ^ e| < e + 53 := by
      rw [← Int.lt_zpow_iff_log_lt (by norm_num) hpos, habs]
      push_cast
      rw [zpow_add₀ (by norm_num : (2 : ℚ) ≠ 0), mul_comm]
      refine mul_lt_mul_of_pos_left ?_ (by positivity)
      exact_mod_cast hlt
    refine roundBinary64_of_le ?_
    rw [ulpExponent]
    omega

/-- Rounding twice is rounding once. -/
theorem roundBinary64_idem (q : ℚ) : roundBinary64 (roundBinary64 q) = roundBinary64 q :=
  roundBinary64_zpow (abs_significand_le q) (neg_1074_le_ulpExponent q)

/-! ## Numbers -/

/-- A finite binary64 value other than negative zero. -/
@[ext] structure Double where
  val : ℚ
  exact : roundBinary64 val = val
  bounded : |val| < 2 ^ 1024

instance : DecidableEq Double := fun a b =>
  decidable_of_iff (a.val = b.val) ⟨Double.ext, fun h => h ▸ rfl⟩

/-- A JavaScript number.  Negative zero is kept apart from zero although `===` identifies them:
`JSON.parse` tells them apart and `JSON.stringify` does not. -/
inductive JsNumber where
  | nan
  | infinity (negative : Bool)
  | negZero
  | finite (d : Double)
  deriving DecidableEq

namespace JsNumber

/-- The number a rational rounds to. -/
def ofRat (q : ℚ) : JsNumber :=
  if h : |roundBinary64 q| < 2 ^ 1024 then .finite ⟨roundBinary64 q, roundBinary64_idem q, h⟩
  else .infinity (q < 0)

/-- The number of the decimal `± m · 10^p`; a negative decimal that rounds to zero is negative
zero. -/
def ofDecimal (negative : Bool) (m : ℕ) (p : ℤ) : JsNumber :=
  let q : ℚ := if negative then -(m * 10 ^ p) else m * 10 ^ p
  if negative && roundBinary64 q = 0 then .negZero else ofRat q

/-- The number of a natural. -/
def ofNat (n : ℕ) : JsNumber :=
  ofRat n

/-- `Number.isFinite` -/
def isFinite : JsNumber → Bool
  | .negZero => true
  | .finite _ => true
  | _ => false

/-- The natural a number is, when it is one: `value >= 0` holds of negative zero as well. -/
def toNat? : JsNumber → Option ℕ
  | .negZero => some 0
  | .finite d => if d.val.den = 1 ∧ 0 ≤ d.val.num then some d.val.num.toNat else none
  | _ => none

/-- `Number.isSafeInteger(value) && value >= 0 && value <= 0xffff_ffff` -/
def toUint32? (n : JsNumber) : Option ℕ :=
  n.toNat?.filter (· ≤ 0xffffffff)

/-- The 32 bits a bitwise operator sees of a number. -/
def toUint32Bits : JsNumber → ℕ
  | .finite d => (d.val.num.tdiv d.val.den % 2 ^ 32).toNat
  | _ => 0

/-- `(n & flag) !== 0` -/
def hasFlag (n : JsNumber) (flag : ℕ) : Bool :=
  n.toUint32Bits &&& flag != 0

theorem ofRat_val {q : ℚ} (d : Double) (h : roundBinary64 q = d.val) : ofRat q = .finite d := by
  rw [ofRat, dif_pos (by rw [h]; exact d.bounded)]
  exact congrArg _ (Double.ext h)

/-- An integer of at most 53 bits is exact. -/
theorem roundBinary64_intCast {z : ℤ} (h : |z| ≤ 2 ^ 53) : roundBinary64 (z : ℚ) = z := by
  have := roundBinary64_zpow h (by norm_num : (-1074 : ℤ) ≤ 0)
  simpa using this

/-- An integer that rounds to one of at most 53 bits is that integer. -/
theorem intCast_eq_of_roundBinary64_eq {z m : ℤ} (hm : |m| < 2 ^ 53)
    (h : roundBinary64 (z : ℚ) = m) : z = m := by
  rcases le_or_gt |z| (2 ^ 53) with hz | hz
  · rw [roundBinary64_intCast hz] at h
    exact_mod_cast h
  · exfalso
    have hz' : (2 : ℚ) ^ (53 : ℤ) ≤ |(z : ℚ)| := by exact_mod_cast hz.le
    have hpos : (0 : ℚ) < |(z : ℚ)| := lt_of_lt_of_le (by positivity) hz'
    have hlog : 53 ≤ Int.log 2 |(z : ℚ)| := (Int.zpow_le_iff_le_log (by norm_num) hpos).mp hz'
    have hexponent : ulpExponent (z : ℚ) = Int.log 2 |(z : ℚ)| - 52 :=
      max_eq_right (by omega)
    have hsignificand : (2 ^ 52 : ℤ) ≤ |significand (z : ℚ)| := by
      refine le_abs_roundHalfEven ?_
      rw [abs_div, abs_of_pos (by positivity : (0 : ℚ) < 2 ^ ulpExponent (z : ℚ)),
        le_div_iff₀ (by positivity), hexponent]
      calc ((2 ^ 52 : ℤ) : ℚ) * 2 ^ (Int.log 2 |(z : ℚ)| - 52) = 2 ^ Int.log 2 |(z : ℚ)| := by
            rw [zpow_sub₀ (by norm_num)]
            push_cast
            rw [mul_div_cancel₀ _ (by norm_num)]
        _ ≤ |(z : ℚ)| := by exact_mod_cast Int.zpow_log_le_self (by norm_num) hpos
    have hspacing : (2 : ℚ) ≤ 2 ^ ulpExponent (z : ℚ) := by
      calc (2 : ℚ) = 2 ^ (1 : ℤ) := by norm_num
        _ ≤ 2 ^ ulpExponent (z : ℚ) := zpow_le_zpow_right₀ (by norm_num) (by omega)
    have hvalue : (2 ^ 53 : ℚ) ≤ |(m : ℚ)| := by
      rw [← h, roundBinary64, abs_mul,
        abs_of_pos (by positivity : (0 : ℚ) < 2 ^ ulpExponent (z : ℚ))]
      have hsignificand' : (2 ^ 52 : ℚ) ≤ |(significand (z : ℚ) : ℚ)| := by
        exact_mod_cast hsignificand
      calc (2 ^ 53 : ℚ) = 2 ^ 52 * 2 := by norm_num
        _ ≤ |(significand (z : ℚ) : ℚ)| * 2 ^ ulpExponent (z : ℚ) := by gcongr
    have hvalue' : (2 ^ 53 : ℤ) ≤ |m| := by exact_mod_cast hvalue
    omega

/-- The double of a natural of at most 53 bits. -/
def ofNatDouble (n : ℕ) (h : n ≤ 2 ^ 53) : Double where
  val := n
  exact := by
    have hn : |(n : ℤ)| ≤ 2 ^ 53 := by
      rw [abs_of_nonneg (Int.natCast_nonneg n)]
      exact_mod_cast h
    exact_mod_cast roundBinary64_intCast hn
  bounded := by
    rw [abs_of_nonneg (Nat.cast_nonneg n)]
    calc (n : ℚ) ≤ 2 ^ 53 := by exact_mod_cast h
      _ < 2 ^ 1024 := pow_lt_pow_right₀ (by norm_num) (by norm_num)

theorem ofNat_of_le {n : ℕ} (h : n ≤ 2 ^ 53) : ofNat n = .finite (ofNatDouble n h) :=
  ofRat_val (ofNatDouble n h) (ofNatDouble n h).exact

@[simp] theorem toNat?_ofNat {n : ℕ} (h : n ≤ 2 ^ 53) : (ofNat n).toNat? = some n := by
  rw [ofNat_of_le h]
  simp [toNat?, ofNatDouble]

/-- An integer whose number is a uint32 is that uint32. -/
theorem eq_of_toUint32?_ofRat {z : ℤ} {n : ℕ} (h : (ofRat (z : ℚ)).toUint32? = some n) :
    z = n := by
  unfold toUint32? at h
  obtain ⟨hnat, hbound⟩ := Option.filter_eq_some_iff.mp h
  have hbound : n ≤ 0xffffffff := of_decide_eq_true hbound
  unfold ofRat at hnat
  split_ifs at hnat
  · unfold toNat? at hnat
    dsimp only at hnat
    split_ifs at hnat with hvalue
    rw [Option.some.injEq] at hnat
    have hround : roundBinary64 (z : ℚ) = ((n : ℤ) : ℚ) := by
      rw [← Rat.coe_int_num_of_den_eq_one hvalue.1, ← hnat, Int.toNat_of_nonneg hvalue.2]
    refine intCast_eq_of_roundBinary64_eq ?_ hround
    rw [abs_of_nonneg (Int.natCast_nonneg n)]
    omega
  · cases hnat

end JsNumber

/-! ## Decimal digits -/

/-- The digits of `n` in front of `acc`, as long as the fuel lasts. -/
def natDigitsAux : ℕ → ℕ → List ℕ → List ℕ
  | 0, _, acc => acc
  | fuel + 1, n, acc =>
      if n < 10 then n :: acc else natDigitsAux fuel (n / 10) (n % 10 :: acc)

/-- The decimal digits of a natural, the leading one first. -/
def natDigits (n : ℕ) : List ℕ :=
  natDigitsAux (n + 1) n []

/-- The natural a list of digits denotes, with the value read so far in front. -/
def ofDigitsAux (value : ℕ) (ds : List ℕ) : ℕ :=
  ds.foldl (fun v d => v * 10 + d) value

/-- The natural a list of digits denotes. -/
def ofDigits (ds : List ℕ) : ℕ :=
  ofDigitsAux 0 ds

theorem ofDigitsAux_eq (value : ℕ) (ds : List ℕ) :
    ofDigitsAux value ds = value * 10 ^ ds.length + ofDigits ds := by
  induction ds generalizing value with
  | nil => simp [ofDigitsAux, ofDigits]
  | cons d ds ih =>
      have h₁ : ofDigitsAux value (d :: ds) = ofDigitsAux (value * 10 + d) ds := rfl
      have h₂ : ofDigits (d :: ds) = ofDigitsAux (0 * 10 + d) ds := rfl
      rw [h₁, h₂, ih, ih, List.length_cons, pow_succ]
      ring

theorem ofDigits_append (xs ys : List ℕ) :
    ofDigits (xs ++ ys) = ofDigits xs * 10 ^ ys.length + ofDigits ys := by
  rw [← ofDigitsAux_eq, ofDigits, ofDigits, ofDigitsAux, List.foldl_append]
  rfl

theorem ofDigits_natDigitsAux {fuel n : ℕ} (h : n < fuel) (acc : List ℕ) :
    ofDigits (natDigitsAux fuel n acc) = n * 10 ^ acc.length + ofDigits acc := by
  induction fuel generalizing n acc with
  | zero => omega
  | succ fuel ih =>
      rw [natDigitsAux]
      split_ifs with hn
      · have : n :: acc = [n] ++ acc := rfl
        rw [this, ofDigits_append]
        simp [ofDigits, ofDigitsAux]
      · rw [ih (by omega), List.length_cons, pow_succ]
        have : ofDigits (n % 10 :: acc) = n % 10 * 10 ^ acc.length + ofDigits acc := by
          have h₁ : n % 10 :: acc = [n % 10] ++ acc := rfl
          rw [h₁, ofDigits_append]
          simp [ofDigits, ofDigitsAux]
        rw [this]
        calc n / 10 * (10 ^ acc.length * 10) + (n % 10 * 10 ^ acc.length + ofDigits acc)
            = (10 * (n / 10) + n % 10) * 10 ^ acc.length + ofDigits acc := by ring
          _ = n * 10 ^ acc.length + ofDigits acc := by rw [Nat.div_add_mod]

/-- The digits of a natural denote it. -/
@[simp] theorem ofDigits_natDigits (n : ℕ) : ofDigits (natDigits n) = n := by
  rw [natDigits, ofDigits_natDigitsAux (Nat.lt_succ_self n)]
  simp [ofDigits, ofDigitsAux]

theorem natDigitsAux_lt_ten {fuel n : ℕ} {acc : List ℕ} (h : ∀ d ∈ acc, d < 10) :
    ∀ d ∈ natDigitsAux fuel n acc, d < 10 := by
  induction fuel generalizing n acc with
  | zero => exact h
  | succ fuel ih =>
      rw [natDigitsAux]
      split_ifs with hn
      · exact List.forall_mem_cons.mpr ⟨hn, h⟩
      · exact ih (List.forall_mem_cons.mpr ⟨Nat.mod_lt _ (by norm_num), h⟩)

theorem lt_ten_of_mem_natDigits {n d : ℕ} (h : d ∈ natDigits n) : d < 10 :=
  natDigitsAux_lt_ten (by simp) d h

theorem natDigitsAux_head {fuel n : ℕ} (h : n < fuel) (hn : 0 < n) (acc : List ℕ) :
    ∃ d ds, natDigitsAux fuel n acc = d :: ds ∧ 0 < d := by
  induction fuel generalizing n acc with
  | zero => omega
  | succ fuel ih =>
      rw [natDigitsAux]
      split_ifs with h10
      · exact ⟨n, acc, rfl, hn⟩
      · exact ih (by omega) (by omega) _

/-- A positive natural has a positive leading digit. -/
theorem natDigits_head {n : ℕ} (hn : 0 < n) : ∃ d ds, natDigits n = d :: ds ∧ 0 < d :=
  natDigitsAux_head (Nat.lt_succ_self n) hn []

/-! ## The shortest decimal -/

/-- The value of the decimal `σ · s · 10^p`. -/
def decimalValue (σ : ℤ) (s : ℕ) (p : ℤ) : ℚ :=
  σ * (s * 10 ^ p)

/-- The finite decimal expansion of a binary64 value. -/
def exactDecimal (q : ℚ) : ℕ × ℤ :=
  let m := (significand q).natAbs
  let e := ulpExponent q
  if 0 ≤ e then (m * 2 ^ e.toNat, 0) else (m * 5 ^ (-e).toNat, e)

/-- The decimals with `k` digits next to `q`, the nearest one first. -/
def decimalCandidates (q : ℚ) (k : ℕ) : List (ℕ × ℤ) :=
  let p := Int.log 10 |q| + 1 - k
  let x := |q| / 10 ^ p
  [((roundHalfEven x).toNat, p), (⌊x⌋.toNat, p), (⌊x⌋.toNat + 1, p)]

/-- The digits of `Number::toString`: the fewest that round back to `q`.  Seventeen digits are
always enough; the exact expansion closes the search without that fact. -/
def shortestDecimal (q : ℚ) : ℕ × ℤ :=
  (((List.range 17).flatMap fun i => decimalCandidates q (i + 1)).find? fun c =>
    roundBinary64 (decimalValue q.num.sign c.1 c.2) = q).getD (exactDecimal q)

theorem sign_num_mul_natAbs_significand {q : ℚ} (h : roundBinary64 q = q) :
    (q.num.sign : ℚ) * ((significand q).natAbs : ℚ) = significand q := by
  have hpow : (0 : ℚ) < 2 ^ ulpExponent q := by positivity
  have hq : (significand q : ℚ) = q / 2 ^ ulpExponent q := by
    rw [eq_div_iff hpow.ne']
    exact h
  have hnat : ((significand q).natAbs : ℚ) = |(significand q : ℚ)| := by
    rw [Nat.cast_natAbs, Int.cast_abs]
  rw [hnat, hq]
  rcases lt_trichotomy q 0 with hlt | rfl | hgt
  · rw [Int.sign_eq_neg_one_of_neg (Rat.num_neg.mpr hlt),
      abs_of_neg (div_neg_of_neg_of_pos hlt hpow)]
    simp
  · simp
  · rw [Int.sign_eq_one_of_pos (Rat.num_pos.mpr hgt), abs_of_pos (div_pos hgt hpow)]
    simp

/-- The exact expansion denotes the value itself. -/
theorem decimalValue_exactDecimal {q : ℚ} (h : roundBinary64 q = q) :
    decimalValue q.num.sign (exactDecimal q).1 (exactDecimal q).2 = q := by
  have hm := sign_num_mul_natAbs_significand h
  conv_rhs => rw [← h, roundBinary64, ← hm]
  unfold exactDecimal decimalValue
  dsimp only
  split_ifs with he
  · have h2 : (2 : ℚ) ^ (ulpExponent q).toNat = 2 ^ ulpExponent q := by
      rw [← zpow_natCast, Int.toNat_of_nonneg he]
    push_cast
    rw [h2]
    ring
  · push_cast
    have h10 : (10 : ℚ) ^ ulpExponent q = 5 ^ ulpExponent q * 2 ^ ulpExponent q := by
      rw [← mul_zpow]
      norm_num
    have h5 : (5 : ℚ) ^ (-ulpExponent q).toNat * 5 ^ ulpExponent q = 1 := by
      rw [← zpow_natCast, Int.toNat_of_nonneg (by omega), ← zpow_add₀ (by norm_num)]
      simp
    rw [h10]
    linear_combination ((q.num.sign : ℚ) * ((significand q).natAbs : ℚ)
      * 2 ^ ulpExponent q) * h5

/-- **The shortest decimal reads back.**  Rounding the chosen decimal gives the number it was
chosen for. -/
theorem roundBinary64_shortestDecimal {q : ℚ} (h : roundBinary64 q = q) :
    roundBinary64 (decimalValue q.num.sign (shortestDecimal q).1 (shortestDecimal q).2) = q := by
  unfold shortestDecimal
  cases hf : ((List.range 17).flatMap fun i => decimalCandidates q (i + 1)).find? fun c =>
      decide (roundBinary64 (decimalValue q.num.sign c.1 c.2) = q) with
  | none =>
      rw [Option.getD_none, decimalValue_exactDecimal h]
      exact h
  | some c =>
      rw [Option.getD_some]
      simpa using List.find?_some hf

end Js
end Xcs
