import Mathlib.Data.List.Basic
import Mathlib.Data.List.Dedup
import Mathlib.Data.Int.Order.Basic

/-!
# Conditions and aggregates of SQL

A condition of SQL is true, false or unknown: a comparison with `NULL` is unknown, and so is a
connective that its known operands leave open.  A `CASE` takes its branch only where its condition
is true, and an aggregate passes over the rows where its argument is `NULL`.

* `all_cons_eq_true`, `any_cons_eq_true` and `compare_eq_true` say when a condition is true; nothing
  else of the third value is ever needed.
* `count_caseWhen_eq_count`: when a `CASE` is true exactly of the rows that a classifier sends to a
  class, its `count` is the number of rows in that class.
* `exists_minimum_le_maximum`: over at least one row, a smaller column has a minimum below the
  maximum of a larger one.
-/

namespace Xcs
namespace Sql

/-! ## Conditions -/

/-- A condition as it comes out: `none` is unknown. -/
abbrev Truth := Option Bool

/-- `AND` -/
def and : Truth → Truth → Truth
  | some false, _ => some false
  | _, some false => some false
  | some true, some true => some true
  | _, _ => none

/-- `OR` -/
def or : Truth → Truth → Truth
  | some true, _ => some true
  | _, some true => some true
  | some false, some false => some false
  | _, _ => none

/-- A chain of conditions with `AND` between them. -/
def all (ts : List Truth) : Truth := ts.foldr and (some true)

/-- A chain of conditions with `OR` between them. -/
def any (ts : List Truth) : Truth := ts.foldr or (some false)

variable {α β Row : Type*}

/-- `value IS NULL` -/
def isNull (value : Option α) : Truth := some value.isNone

/-- `value IS NOT NULL` -/
def isNotNull (value : Option α) : Truth := some value.isSome

/-- A comparison, unknown as soon as one side is `NULL`. -/
def compare (r : α → β → Bool) : Option α → Option β → Truth
  | some a, some b => some (r a b)
  | _, _ => none

theorem and_eq_true {t u : Truth} : and t u = some true ↔ t = some true ∧ u = some true := by
  rcases t with _ | _ | _ <;> rcases u with _ | _ | _ <;> simp [and]

theorem or_eq_true {t u : Truth} : or t u = some true ↔ t = some true ∨ u = some true := by
  rcases t with _ | _ | _ <;> rcases u with _ | _ | _ <;> simp [or]

@[simp] theorem all_nil : all [] = some true := rfl

@[simp] theorem any_nil : any [] = some false := rfl

@[simp] theorem all_cons_eq_true {t : Truth} {ts : List Truth} :
    all (t :: ts) = some true ↔ t = some true ∧ all ts = some true :=
  and_eq_true

@[simp] theorem any_cons_eq_true {t : Truth} {ts : List Truth} :
    any (t :: ts) = some true ↔ t = some true ∨ any ts = some true :=
  or_eq_true

@[simp] theorem isNull_eq_true {value : Option α} : isNull value = some true ↔ value = none := by
  simp [isNull]

@[simp] theorem isNotNull_eq_true {value : Option α} :
    isNotNull value = some true ↔ value ≠ none := by
  simp [isNotNull, Option.isSome_iff_ne_none]

@[simp] theorem compare_eq_true {r : α → β → Bool} {x : Option α} {y : Option β} :
    compare r x y = some true ↔ ∃ a b, x = some a ∧ y = some b ∧ r a b = true := by
  rcases x with _ | a <;> rcases y with _ | b <;> simp [compare]

/-! ## Counts -/

/-- `CASE WHEN condition THEN 1 END` -/
def caseWhen (condition : Truth) : Option ℤ :=
  if condition = some true then some 1 else none

/-- `count(value)`: the rows where the argument is not `NULL`. -/
def count (value : Row → Option α) (rows : List Row) : ℕ :=
  (rows.filterMap value).length

/-- `count(DISTINCT value)` -/
def countDistinct [DecidableEq α] (value : Row → Option α) (rows : List Row) : ℕ :=
  (rows.filterMap value).dedup.length

theorem count_le_length (value : Row → Option α) (rows : List Row) :
    count value rows ≤ rows.length :=
  List.length_filterMap_le value rows

theorem countDistinct_le_length [DecidableEq α] (value : Row → Option α) (rows : List Row) :
    countDistinct value rows ≤ rows.length :=
  Nat.le_trans (List.dedup_sublist _).length_le (count_le_length value rows)

theorem count_caseWhen_cons (condition : Row → Truth) (row : Row) (rows : List Row) :
    count (fun row => caseWhen (condition row)) (row :: rows)
      = count (fun row => caseWhen (condition row)) rows
        + if condition row = some true then 1 else 0 := by
  unfold count caseWhen
  by_cases h : condition row = some true
  · simp [h]
  · simp [h]

/-- A `CASE` that is never true counts nothing. -/
theorem count_caseWhen_eq_zero {condition : Row → Truth} {rows : List Row}
    (h : ∀ row ∈ rows, condition row ≠ some true) :
    count (fun row => caseWhen (condition row)) rows = 0 := by
  induction rows with
  | nil => rfl
  | cons row rows ih =>
      rw [List.forall_mem_cons] at h
      rw [count_caseWhen_cons, ih h.2, if_neg h.1]

/-- When a `CASE` is true exactly of the rows that a classifier sends to a class, its `count` is
the number of rows in that class. -/
theorem count_caseWhen_eq_count [DecidableEq α] {condition : Row → Truth} {classOf : Row → α}
    {a : α} {rows : List Row} (h : ∀ row ∈ rows, condition row = some true ↔ classOf row = a) :
    count (fun row => caseWhen (condition row)) rows = (rows.map classOf).count a := by
  induction rows with
  | nil => rfl
  | cons row rows ih =>
      rw [List.forall_mem_cons] at h
      rw [count_caseWhen_cons, ih h.2, List.map_cons, List.count_cons]
      simp only [h.1, beq_iff_eq]

/-! ## Least and greatest values -/

/-- `min(value)`, `NULL` over no rows. -/
def minimum (value : Row → Option ℤ) (rows : List Row) : Option ℤ :=
  (rows.filterMap value).min?

/-- `max(value)`, `NULL` over no rows. -/
def maximum (value : Row → Option ℤ) (rows : List Row) : Option ℤ :=
  (rows.filterMap value).max?

@[simp] theorem minimum_nil (value : Row → Option ℤ) : minimum value [] = none := rfl

@[simp] theorem maximum_nil (value : Row → Option ℤ) : maximum value [] = none := rfl

/-- Over at least one row, a column that is nowhere above another has a minimum, the other has a
maximum, and the minimum is not above the maximum.  Both are values of rows. -/
theorem exists_minimum_le_maximum {low high : Row → ℤ} {rows : List Row} (hne : rows ≠ [])
    (hle : ∀ row ∈ rows, low row ≤ high row) :
    ∃ row₁ ∈ rows, ∃ row₂ ∈ rows, minimum (fun row => some (low row)) rows = some (low row₁) ∧
      maximum (fun row => some (high row)) rows = some (high row₂) ∧ low row₁ ≤ high row₂ := by
  have hlow : minimum (fun row => some (low row)) rows = (rows.map low).min? := by
    rw [minimum, List.filterMap_eq_map']
  have hhigh : maximum (fun row => some (high row)) rows = (rows.map high).max? := by
    rw [maximum, List.filterMap_eq_map']
  obtain ⟨lo, hlo⟩ := Option.isSome_iff_exists.mp
    (List.isSome_min?_of_ne_nil (l := rows.map low) (by simpa using hne))
  obtain ⟨hi, hhi⟩ := Option.isSome_iff_exists.mp
    (List.isSome_max?_of_ne_nil (l := rows.map high) (by simpa using hne))
  obtain ⟨row₁, hrow₁, rfl⟩ := List.mem_map.mp (List.min?_mem hlo)
  obtain ⟨row₂, hrow₂, rfl⟩ := List.mem_map.mp (List.max?_mem hhi)
  refine ⟨row₁, hrow₁, row₂, hrow₂, hlow.trans hlo, hhigh.trans hhi, ?_⟩
  calc low row₁ ≤ low row₂ := (List.min?_eq_some_iff.mp hlo).2 _ (List.mem_map_of_mem hrow₂)
    _ ≤ high row₂ := hle row₂ hrow₂

end Sql
end Xcs
