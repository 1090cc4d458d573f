import Mathlib.Data.List.Sort
import Mathlib.Data.List.Nodup
import Xcs.Js.Text
import Xcs.Js.Number

/-!
# JavaScript values

The data a program reads from JSON text, from a ledger response or from a `jsonb` column: the
primitives, arrays, and objects as the list of their own members in property order.  A member
that is absent reads as `undefined`, and a member may hold `undefined`.

Two values that a program cannot tell apart once they went through a `jsonb` column differ in
the order of object members and in the sign of zero.  `JsValue.canon` sorts the members of every
object by the UTF-16 code units of the key and drops the sign, so `v.canon = w.canon` is that
equality.

* `JsValue.induct` is the induction over values: one case a constructor, the children of an array
  or an object all at once.
* `JsValue.every` says that a local test holds at every node, and `allStrings`, `isJson` and
  `distinctKeys` are instances.
* `canon_canon` and `get_canon` are the two facts every reader of a stored value relies on.
-/

namespace Xcs
namespace Js

/-- A JavaScript value. -/
inductive JsValue where
  | undefined
  | null
  | bool (b : Bool)
  | num (n : JsNumber)
  | str (s : JsString)
  | arr (items : List JsValue)
  | obj (members : List (JsString × JsValue))

/-- The members of an object in property order. -/
abbrev Members := List (JsString × JsValue)

namespace JsValue

/-! ## Induction -/

section Induction

variable {P : JsValue → Prop} (undefined : P .undefined) (null : P .null)
  (bool : ∀ b, P (.bool b)) (num : ∀ n, P (.num n)) (str : ∀ s, P (.str s))
  (arr : ∀ items, (∀ v ∈ items, P v) → P (.arr items))
  (obj : ∀ members, (∀ m ∈ members, P m.2) → P (.obj members))

include undefined null bool num str arr obj

/-- Induction over values, with the children of an array or of an object all at once. -/
theorem induct : ∀ v : JsValue, P v :=
  @JsValue.rec P (fun items => ∀ v ∈ items, P v) (fun members => ∀ m ∈ members, P m.2)
    (fun m => P m.2) undefined null bool num str arr obj
    (fun _ h => absurd h List.not_mem_nil)
    (fun _ _ hv hitems => List.forall_mem_cons.mpr ⟨hv, hitems⟩)
    (fun _ h => absurd h List.not_mem_nil)
    (fun _ _ hm hmembers => List.forall_mem_cons.mpr ⟨hm, hmembers⟩)
    (fun _ _ hv => hv)

end Induction

/-! ## Access -/

/-- `value[key]` for a key that is no array index and no inherited property. -/
def get (v : JsValue) (key : JsString) : JsValue :=
  match v with
  | .obj members => (members.lookup key).getD .undefined
  | _ => .undefined

/-- `typeof value === 'object' && value !== null` -/
def isObject : JsValue → Bool
  | .arr _ => true
  | .obj _ => true
  | _ => false

/-- `value === s` for a string `s`. -/
def isStr (v : JsValue) (s : JsString) : Bool :=
  match v with
  | .str t => t == s
  | _ => false

/-- `value === undefined` -/
def isUndefined : JsValue → Bool
  | .undefined => true
  | _ => false

/-- `value === null` -/
def isNull : JsValue → Bool
  | .null => true
  | _ => false

/-- `typeof value === 'string'` -/
def isString : JsValue → Bool
  | .str _ => true
  | _ => false

/-- Whether a condition takes a value for true. -/
def truthy : JsValue → Bool
  | .undefined => false
  | .null => false
  | .bool b => b
  | .num n => n != .nan && n != .negZero && n != .ofNat 0
  | .str s => !s.isEmpty
  | .arr _ => true
  | .obj _ => true

theorem isStr_iff {v : JsValue} {s : JsString} : v.isStr s = true ↔ v = .str s := by
  cases v <;> simp [isStr]

@[simp] theorem isStr_self (s : JsString) : (str s).isStr s = true :=
  isStr_iff.mpr rfl

theorem isUndefined_iff {v : JsValue} : v.isUndefined = true ↔ v = .undefined := by
  cases v <;> simp [isUndefined]

theorem isNull_iff {v : JsValue} : v.isNull = true ↔ v = .null := by
  cases v <;> simp [isNull]

theorem get_obj (members : Members) (key : JsString) :
    (JsValue.obj members).get key = (members.lookup key).getD .undefined := rfl

/-! ## Local tests at every node -/

mutual

/-- A test holds of the value and of everything in it. -/
def every (p : JsValue → Bool) : JsValue → Bool
  | .arr items => p (.arr items) && everyItem p items
  | .obj members => p (.obj members) && everyMember p members
  | v => p v

def everyItem (p : JsValue → Bool) : List JsValue → Bool
  | [] => true
  | v :: items => every p v && everyItem p items

def everyMember (p : JsValue → Bool) : Members → Bool
  | [] => true
  | (_, v) :: members => every p v && everyMember p members

end

theorem everyItem_eq (p : JsValue → Bool) : ∀ items, everyItem p items = items.all (every p)
  | [] => rfl
  | v :: items => by rw [everyItem, everyItem_eq p items, List.all_cons]

theorem everyMember_eq (p : JsValue → Bool) :
    ∀ members : Members, everyMember p members = members.all fun m => every p m.2
  | [] => rfl
  | (k, v) :: members => by rw [everyMember, everyMember_eq p members, List.all_cons]

@[simp] theorem every_arr (p : JsValue → Bool) (items : List JsValue) :
    every p (.arr items) = (p (.arr items) && items.all (every p)) := by
  rw [every, everyItem_eq]

@[simp] theorem every_obj (p : JsValue → Bool) (members : Members) :
    every p (.obj members) = (p (.obj members) && members.all fun m => every p m.2) := by
  rw [every, everyMember_eq]

@[simp] theorem every_undefined (p : JsValue → Bool) : every p .undefined = p .undefined := rfl
@[simp] theorem every_null (p : JsValue → Bool) : every p .null = p .null := rfl
@[simp] theorem every_bool (p : JsValue → Bool) (b : Bool) : every p (.bool b) = p (.bool b) := rfl
@[simp] theorem every_num (p : JsValue → Bool) (n : JsNumber) : every p (.num n) = p (.num n) := rfl
@[simp] theorem every_str (p : JsValue → Bool) (s : JsString) : every p (.str s) = p (.str s) := rfl

/-- Whatever a lookup finds passes the same test at every node. -/
theorem every_get {p : JsValue → Bool} (hp : p .undefined = true) {v : JsValue}
    (h : v.every p = true) (key : JsString) : (v.get key).every p = true := by
  cases v with
  | obj members =>
      rw [get_obj]
      cases hk : members.lookup key with
      | none => simpa using hp
      | some w =>
          rw [every_obj, Bool.and_eq_true, List.all_eq_true] at h
          obtain ⟨l₁, l₂, rfl, -⟩ := List.lookup_eq_some_iff.mp hk
          exact h.2 (key, w) (by simp)
  | _ => simpa [get] using hp

/-- Monotonicity of the local test. -/
theorem every_imp {p q : JsValue → Bool} (h : ∀ v, p v = true → q v = true) :
    ∀ {v : JsValue}, v.every p = true → v.every q = true := by
  intro v
  induction v using induct with
  | arr items ih =>
      rw [every_arr, every_arr, Bool.and_eq_true, Bool.and_eq_true, List.all_eq_true,
        List.all_eq_true]
      exact fun hv => ⟨h _ hv.1, fun w hw => ih w hw (hv.2 w hw)⟩
  | obj members ih =>
      rw [every_obj, every_obj, Bool.and_eq_true, Bool.and_eq_true, List.all_eq_true,
        List.all_eq_true]
      exact fun hv => ⟨h _ hv.1, fun m hm => ih m hm (hv.2 m hm)⟩
  | _ => exact h _

/-- Every string in the value, the keys included, passes a test. -/
def allStrings (p : JsString → Bool) : JsValue → Bool :=
  every fun
    | .str s => p s
    | .obj members => members.all fun m => p m.1
    | _ => true

/-- The value is a JSON value: nothing in it is `undefined` and every number is finite. -/
def isJson : JsValue → Bool :=
  every fun
    | .undefined => false
    | .num n => n.isFinite
    | _ => true

/-- No object in the value has two members with the same key. -/
def distinctKeys : JsValue → Bool :=
  every fun
    | .obj members => decide (members.map (·.1)).Nodup
    | _ => true

@[simp] theorem allStrings_str (p : JsString → Bool) (s : JsString) :
    allStrings p (.str s) = p s := rfl

@[simp] theorem allStrings_arr (p : JsString → Bool) (items : List JsValue) :
    allStrings p (.arr items) = items.all (allStrings p) := by
  simp [allStrings]

@[simp] theorem allStrings_obj (p : JsString → Bool) (members : Members) :
    allStrings p (.obj members)
      = members.all fun m => p m.1 && allStrings p m.2 := by
  rw [allStrings, every_obj, Bool.eq_iff_iff]
  simp only [Bool.and_eq_true, List.all_eq_true]
  exact ⟨fun h m hm => ⟨h.1 m hm, h.2 m hm⟩,
    fun h => ⟨fun m hm => (h m hm).1, fun m hm => (h m hm).2⟩⟩

/-- Monotonicity of the test on strings. -/
theorem allStrings_imp {p q : JsString → Bool} (h : ∀ s, p s = true → q s = true) {v : JsValue}
    (hv : v.allStrings p = true) : v.allStrings q = true := by
  refine every_imp (fun w hw => ?_) hv
  cases w with
  | str s => exact h s hw
  | obj members =>
      rw [List.all_eq_true] at hw ⊢
      exact fun m hm => h m.1 (hw m hm)
  | _ => rfl

@[simp] theorem isJson_arr (items : List JsValue) :
    isJson (.arr items) = items.all isJson := by
  simp [isJson]

@[simp] theorem isJson_obj (members : Members) :
    isJson (.obj members) = members.all fun m => isJson m.2 := by
  simp [isJson]

@[simp] theorem isJson_undefined : isJson .undefined = false := rfl
@[simp] theorem isJson_str (s : JsString) : isJson (.str s) = true := rfl

@[simp] theorem distinctKeys_arr (items : List JsValue) :
    distinctKeys (.arr items) = items.all distinctKeys := by
  simp [distinctKeys]

@[simp] theorem distinctKeys_obj (members : Members) :
    distinctKeys (.obj members)
      = (decide (members.map (·.1)).Nodup && members.all fun m => distinctKeys m.2) := by
  simp [distinctKeys]

theorem allStrings_get {p : JsString → Bool} {v : JsValue} (h : v.allStrings p = true)
    (key : JsString) : (v.get key).allStrings p = true :=
  every_get rfl h key

theorem distinctKeys_get {v : JsValue} (h : v.distinctKeys = true) (key : JsString) :
    (v.get key).distinctKeys = true :=
  every_get rfl h key

end JsValue

/-! ## The order of keys -/

/-- The order of strings by code units, which `Array.prototype.sort` uses and RFC 8785
prescribes. -/
def keyLe : JsString → JsString → Bool
  | [], _ => true
  | _ :: _, [] => false
  | u :: s, v :: t => u < v || (u == v && keyLe s t)

theorem keyLe_total : ∀ s t : JsString, keyLe s t = true ∨ keyLe t s = true
  | [], _ => Or.inl rfl
  | _ :: _, [] => Or.inr rfl
  | u :: s, v :: t => by
      have ih := keyLe_total s t
      simp only [keyLe, Bool.or_eq_true, decide_eq_true_eq, Bool.and_eq_true, beq_iff_eq]
      rcases lt_trichotomy u.toNat v.toNat with h | h | h
      · exact Or.inl (Or.inl (UInt16.lt_iff_toNat_lt.mpr h))
      · have huv : u = v := UInt16.toNat_inj.mp h
        rcases ih with ih | ih
        · exact Or.inl (Or.inr ⟨huv, ih⟩)
        · exact Or.inr (Or.inr ⟨huv.symm, ih⟩)
      · exact Or.inr (Or.inl (UInt16.lt_iff_toNat_lt.mpr h))

theorem keyLe_refl (s : JsString) : keyLe s s = true := by
  rcases keyLe_total s s with h | h <;> exact h

theorem keyLe_antisymm : ∀ {s t : JsString}, keyLe s t = true → keyLe t s = true → s = t
  | [], [], _, _ => rfl
  | [], _ :: _, _, h => by simp [keyLe] at h
  | _ :: _, [], h, _ => by simp [keyLe] at h
  | u :: s, v :: t, h₁, h₂ => by
      simp only [keyLe, Bool.or_eq_true, decide_eq_true_eq, Bool.and_eq_true, beq_iff_eq,
        UInt16.lt_iff_toNat_lt] at h₁ h₂
      rcases h₁ with h₁ | ⟨rfl, h₁⟩ <;> rcases h₂ with h₂ | ⟨h, h₂⟩
      · omega
      · subst h
        omega
      · omega
      · rw [keyLe_antisymm h₁ h₂]

theorem keyLe_trans : ∀ {s t w : JsString}, keyLe s t = true → keyLe t w = true →
    keyLe s w = true
  | [], _, _, _, _ => rfl
  | _ :: _, [], _, h, _ => by simp [keyLe] at h
  | _ :: _, _ :: _, [], _, h => by simp [keyLe] at h
  | u :: s, v :: t, x :: w, h₁, h₂ => by
      simp only [keyLe, Bool.or_eq_true, decide_eq_true_eq, Bool.and_eq_true, beq_iff_eq,
        UInt16.lt_iff_toNat_lt] at h₁ h₂ ⊢
      rcases h₁ with h₁ | ⟨rfl, h₁⟩ <;> rcases h₂ with h₂ | ⟨rfl, h₂⟩
      · exact Or.inl (by omega)
      · exact Or.inl h₁
      · exact Or.inl h₂
      · exact Or.inr ⟨rfl, keyLe_trans h₁ h₂⟩

/-! ## Sorting members -/

/-- Members compared by their keys. -/
def memberLe {α : Type*} (a b : JsString × α) : Prop :=
  keyLe a.1 b.1 = true

instance {α : Type*} : DecidableRel (memberLe (α := α)) := fun _ _ =>
  inferInstanceAs (Decidable (_ = true))

instance {α : Type*} : Std.Total (memberLe (α := α)) := ⟨fun a b => keyLe_total a.1 b.1⟩

instance {α : Type*} : IsTrans (JsString × α) memberLe := ⟨fun _ _ _ => keyLe_trans⟩

/-- The members sorted by key, equal keys in their old order. -/
def sortMembers {α : Type*} (members : List (JsString × α)) : List (JsString × α) :=
  members.insertionSort memberLe

section Sorting

variable {α β : Type*}

theorem sortMembers_perm (members : List (JsString × α)) :
    (sortMembers members).Perm members :=
  List.perm_insertionSort _ _

theorem pairwise_sortMembers (members : List (JsString × α)) :
    (sortMembers members).Pairwise memberLe :=
  List.pairwise_insertionSort _ _

@[simp] theorem mem_sortMembers {members : List (JsString × α)} {m : JsString × α} :
    m ∈ sortMembers members ↔ m ∈ members :=
  (sortMembers_perm members).mem_iff

/-- A sorted list stays as it is. -/
theorem sortMembers_of_pairwise {members : List (JsString × α)} (h : members.Pairwise memberLe) :
    sortMembers members = members :=
  h.insertionSort_eq

theorem sortMembers_sortMembers (members : List (JsString × α)) :
    sortMembers (sortMembers members) = sortMembers members :=
  sortMembers_of_pairwise (pairwise_sortMembers members)

theorem orderedInsert_map (f : JsString × α → β) (a : JsString × α) :
    ∀ members : List (JsString × α),
      (members.map fun m => (m.1, f m)).orderedInsert memberLe (a.1, f a)
        = (members.orderedInsert memberLe a).map fun m => (m.1, f m)
  | [] => rfl
  | m :: members => by
      rw [List.map_cons, List.orderedInsert_cons, List.orderedInsert_cons]
      by_cases h : memberLe a m
      · rw [if_pos (show memberLe (a.1, f a) (m.1, f m) from h), if_pos h]
        rfl
      · rw [if_neg (show ¬memberLe (a.1, f a) (m.1, f m) from h), if_neg h,
          orderedInsert_map f a members]
        rfl

/-- Sorting looks at keys only. -/
theorem sortMembers_map (f : JsString × α → β) : ∀ members : List (JsString × α),
    sortMembers (members.map fun m => (m.1, f m))
      = (sortMembers members).map fun m => (m.1, f m)
  | [] => rfl
  | m :: members => by
      rw [List.map_cons, sortMembers, List.insertionSort_cons, ← sortMembers,
        sortMembers_map f members, sortMembers, sortMembers, List.insertionSort_cons]
      exact orderedInsert_map f m _

theorem lookup_orderedInsert (key : JsString) (a : JsString × α) :
    ∀ members : List (JsString × α),
      (members.orderedInsert memberLe a).lookup key = (a :: members).lookup key
  | [] => rfl
  | m :: members => by
      rw [List.orderedInsert_cons]
      split_ifs with h
      · rfl
      · have hne : m.1 ≠ a.1 := fun he => h (by rw [memberLe, he]; exact keyLe_refl _)
        rw [List.lookup_cons, lookup_orderedInsert key a members, List.lookup_cons,
          List.lookup_cons, List.lookup_cons]
        by_cases ha : key = a.1
        · subst ha
          rw [beq_self_eq_true, beq_eq_false_iff_ne.mpr hne.symm]
        · rw [beq_eq_false_iff_ne.mpr ha]

/-- The sort is stable, so it does not change what a lookup finds. -/
theorem lookup_sortMembers (key : JsString) : ∀ members : List (JsString × α),
    (sortMembers members).lookup key = members.lookup key
  | [] => rfl
  | m :: members => by
      rw [sortMembers, List.insertionSort_cons, lookup_orderedInsert, List.lookup_cons,
        ← sortMembers, lookup_sortMembers key members, List.lookup_cons]

/-- Two lists of members with the same content and no repeated key sort to the same list. -/
theorem sortMembers_eq_of_perm {xs ys : List (JsString × α)} (h : xs.Perm ys)
    (hnodup : (xs.map (·.1)).Nodup) : sortMembers xs = sortMembers ys := by
  refine List.Perm.eq_of_pairwise ?_ (pairwise_sortMembers xs) (pairwise_sortMembers ys)
    (((sortMembers_perm xs).trans h).trans (sortMembers_perm ys).symm)
  intro a b ha hb hab hba
  have hkey : a.1 = b.1 := keyLe_antisymm hab hba
  exact List.inj_on_of_nodup_map hnodup (mem_sortMembers.mp ha)
    (h.mem_iff.mpr (mem_sortMembers.mp hb)) hkey

theorem map_fst_sortMembers_perm (members : List (JsString × α)) :
    ((sortMembers members).map (·.1)).Perm (members.map (·.1)) :=
  (sortMembers_perm members).map _

end Sorting

/-! ## Deep equality -/

namespace JsValue

mutual

/-- `isDeepStrictEqual`: the order of the members of an object does not matter, and numbers are
compared by `Object.is`. -/
def isDeepStrictEqual : JsValue → JsValue → Bool
  | .undefined, .undefined => true
  | .null, .null => true
  | .bool a, .bool b => a == b
  | .num a, .num b => a == b
  | .str a, .str b => a == b
  | .arr xs, .arr ys => deepEqualItems xs ys
  | .obj ms, .obj ns => ms.length == ns.length && deepEqualMembers ms ns
  | _, _ => false

def deepEqualItems : List JsValue → List JsValue → Bool
  | [], [] => true
  | x :: xs, y :: ys => isDeepStrictEqual x y && deepEqualItems xs ys
  | _, _ => false

/-- Each member of the first list has a value in the second one that it is equal to. -/
def deepEqualMembers : Members → Members → Bool
  | [], _ => true
  | (key, v) :: ms, ns =>
      (match ns.lookup key with
        | some w => isDeepStrictEqual v w
        | none => false) && deepEqualMembers ms ns

end

end JsValue

/-! ## The canonical form of a value -/

/-- `0` -/
def JsNumber.zero : JsNumber :=
  .finite ⟨0, by decide +kernel, by norm_num⟩

/-- A number without the sign of zero. -/
def JsNumber.canon : JsNumber → JsNumber
  | .negZero => .zero
  | n => n

@[simp] theorem JsNumber.canon_canon (n : JsNumber) : n.canon.canon = n.canon := by
  cases n <;> rfl

/-- The sign of zero is not seen by who asks for a natural. -/
theorem JsNumber.toNat?_canon (n : JsNumber) : n.canon.toNat? = n.toNat? := by
  cases n <;> rfl

namespace JsValue

mutual

/-- The value with every object sorted by key and without negative zeros. -/
def canon : JsValue → JsValue
  | .num n => .num n.canon
  | .arr items => .arr (canonItems items)
  | .obj members => .obj (sortMembers (canonMembers members))
  | .undefined => .undefined
  | .null => .null
  | .bool b => .bool b
  | .str s => .str s

def canonItems : List JsValue → List JsValue
  | [] => []
  | v :: items => canon v :: canonItems items

def canonMembers : Members → Members
  | [] => []
  | (k, v) :: members => (k, canon v) :: canonMembers members

end

theorem canonItems_eq : ∀ items, canonItems items = items.map canon
  | [] => rfl
  | v :: items => by rw [canonItems, canonItems_eq items, List.map_cons]

theorem canonMembers_eq : ∀ members : Members,
    canonMembers members = members.map fun m => (m.1, canon m.2)
  | [] => rfl
  | (k, v) :: members => by rw [canonMembers, canonMembers_eq members, List.map_cons]

@[simp] theorem canon_undefined : canon .undefined = .undefined := rfl
@[simp] theorem canon_null : canon .null = .null := rfl
@[simp] theorem canon_bool (b : Bool) : canon (.bool b) = .bool b := rfl
@[simp] theorem canon_num (n : JsNumber) : canon (.num n) = .num n.canon := rfl
@[simp] theorem canon_str (s : JsString) : canon (.str s) = .str s := rfl

@[simp] theorem canon_arr (items : List JsValue) :
    canon (.arr items) = .arr (items.map canon) := by
  rw [canon, canonItems_eq]

@[simp] theorem canon_obj (members : Members) :
    canon (.obj members) = .obj (sortMembers (members.map fun m => (m.1, m.2.canon))) := by
  rw [canon, canonMembers_eq]

/-- The canonical form is its own canonical form. -/
@[simp] theorem canon_canon (v : JsValue) : v.canon.canon = v.canon := by
  induction v using induct with
  | num n => simp
  | arr items ih =>
      rw [canon_arr, canon_arr, List.map_map]
      exact congrArg _ (List.map_congr_left ih)
  | obj members ih =>
      rw [canon_obj, canon_obj, ← sortMembers_map, sortMembers_sortMembers, List.map_map]
      exact congrArg _ (congrArg _ (List.map_congr_left fun m hm => by simp [ih m hm]))
  | _ => rfl

/-- A lookup finds the members, where their keys are distinct. -/
theorem lookup_eq_some_iff_mem {α : Type*} {key : JsString} {a : α} :
    ∀ {members : List (JsString × α)}, (members.map (·.1)).Nodup →
      (members.lookup key = some a ↔ (key, a) ∈ members)
  | [], _ => by simp
  | (k, b) :: members, h => by
      rw [List.map_cons, List.nodup_cons] at h
      rw [List.lookup_cons, List.mem_cons, Prod.mk.injEq]
      by_cases hkey : key = k
      · subst hkey
        have hnot : (key, a) ∉ members := fun hmem =>
          h.1 (List.mem_map_of_mem (f := (·.1)) hmem)
        simp [hnot, eq_comm]
      · rw [beq_false_of_ne hkey]
        simpa [hkey] using lookup_eq_some_iff_mem h.2

/-- A lookup sees through a filter that keeps every member with its key. -/
theorem lookup_filter {α : Type*} {p : JsString × α → Bool} {key : JsString}
    (h : ∀ a, p (key, a) = true) : ∀ members : List (JsString × α),
      (members.filter p).lookup key = members.lookup key
  | [] => rfl
  | (k, a) :: members => by
      by_cases hkey : key = k
      · subst hkey
        rw [List.filter_cons_of_pos (h a), List.lookup_cons, List.lookup_cons]
        simp
      · by_cases hp : p (k, a) = true
        · rw [List.filter_cons_of_pos hp, List.lookup_cons, List.lookup_cons,
            lookup_filter h members]
        · rw [List.filter_cons_of_neg hp, List.lookup_cons, beq_false_of_ne hkey,
            lookup_filter h members]

/-- Where the keys are distinct, a filter keeps what is found or loses it. -/
theorem lookup_filter_of_nodup {α : Type*} {p : JsString × α → Bool} {key : JsString}
    {members : List (JsString × α)} (h : (members.map (·.1)).Nodup) :
    (members.filter p).lookup key = (members.lookup key).filter fun a => p (key, a) := by
  have hfiltered : ((members.filter p).map (·.1)).Nodup :=
    (List.filter_sublist.map _).nodup h
  ext a
  rw [lookup_eq_some_iff_mem hfiltered, List.mem_filter, Option.filter_eq_some_iff,
    lookup_eq_some_iff_mem h]

/-- A lookup sees through a map of the values. -/
theorem lookup_map_values {α β : Type*} (f : JsString → α → β) (key : JsString) :
    ∀ members : List (JsString × α),
      (members.map fun m => (m.1, f m.1 m.2)).lookup key = (members.lookup key).map (f key)
  | [] => rfl
  | (k, a) :: members => by
      rw [List.map_cons, List.lookup_cons, List.lookup_cons]
      by_cases hkey : key = k
      · subst hkey
        simp
      · rw [beq_false_of_ne hkey]
        exact lookup_map_values f key members

/-- What a lookup finds in the members of the canonical form. -/
theorem lookup_canonMembers (key : JsString) (members : Members) :
    (sortMembers (members.map fun m => (m.1, m.2.canon))).lookup key
      = (members.lookup key).map canon := by
  rw [lookup_sortMembers]
  induction members with
  | nil => rfl
  | cons m members ih =>
      rw [List.map_cons, List.lookup_cons, List.lookup_cons]
      cases key == m.1
      · exact ih
      · rfl

/-- Objects with the same members have the same canonical form, in whatever order. -/
theorem canon_obj_eq {xs ys : Members} (hx : (xs.map (·.1)).Nodup) (hy : (ys.map (·.1)).Nodup)
    (h : ∀ key, (xs.lookup key).map canon = (ys.lookup key).map canon) :
    (obj xs).canon = (obj ys).canon := by
  have hkeys : ∀ zs : Members, (zs.map fun m => (m.1, m.2.canon)).map (·.1) = zs.map (·.1) :=
    fun zs => List.map_map
  have hlookup : ∀ (zs : Members) (key : JsString),
      (zs.map fun m => (m.1, m.2.canon)).lookup key = (zs.lookup key).map canon := by
    intro zs key
    rw [← lookup_canonMembers, lookup_sortMembers]
  rw [canon_obj, canon_obj]
  rw [← hkeys xs] at hx
  rw [← hkeys ys] at hy
  refine congrArg _ (sortMembers_eq_of_perm ((List.perm_ext_iff_of_nodup hx.of_map hy.of_map).mpr
    fun m => ?_) hx)
  rw [← lookup_eq_some_iff_mem hx, ← lookup_eq_some_iff_mem hy, hlookup, hlookup, h]

/-- **Objects with the same keys in the same places** have the same canonical form when their values
have. -/
theorem canon_obj_eq_iff {xs ys : Members} (hkeys : xs.map (·.1) = ys.map (·.1))
    (hnodup : (xs.map (·.1)).Nodup) :
    (obj xs).canon = (obj ys).canon ↔ (xs.map fun m => m.2.canon) = ys.map fun m => m.2.canon := by
  constructor
  · intro h
    have hlookup : ∀ key, (xs.lookup key).map canon = (ys.lookup key).map canon := by
      intro key
      rw [canon_obj, canon_obj, obj.injEq] at h
      rw [← lookup_canonMembers, h, lookup_canonMembers]
    clear h
    induction xs generalizing ys with
    | nil =>
        cases ys with
        | nil => rfl
        | cons n ys => simp at hkeys
    | cons m xs ih =>
        cases ys with
        | nil => simp at hkeys
        | cons n ys =>
            rw [List.map_cons, List.map_cons, List.cons.injEq] at hkeys
            rw [List.map_cons, List.nodup_cons] at hnodup
            have hhead := hlookup m.1
            rw [List.lookup_cons, List.lookup_cons, ← hkeys.1, beq_self_eq_true] at hhead
            rw [List.map_cons, List.map_cons, List.cons.injEq]
            refine ⟨Option.some.inj hhead, ih hkeys.2 hnodup.2 fun key => ?_⟩
            by_cases hkey : key = m.1
            · have hnone : ∀ {zs : Members}, m.1 ∉ zs.map (·.1) → zs.lookup m.1 = none := by
                intro zs hmem
                rw [List.lookup_eq_none_iff]
                intro z hz
                rw [bne_iff_ne]
                rintro heq
                exact hmem (List.mem_map.mpr ⟨z, hz, heq.symm⟩)
              have hnot := hnodup.1
              rw [hkey, hnone hnot, hnone (by rw [← hkeys.2]; exact hnot)]
            · have htail := hlookup key
              have hfalse : (key == m.1) = false := beq_false_of_ne hkey
              rw [List.lookup_cons, List.lookup_cons, ← hkeys.1, hfalse] at htail
              exact htail
  · intro h
    rw [canon_obj, canon_obj]
    refine congrArg _ (congrArg _ ?_)
    have hzip : ∀ {zs : Members}, (zs.map fun m => (m.1, m.2.canon))
        = (zs.map (·.1)).zip (zs.map fun m => m.2.canon) := by
      intro zs
      rw [List.zip_map']
    rw [hzip, hzip, hkeys, h]

/-- Reading a member commutes with the canonical form. -/
theorem get_canon (v : JsValue) (key : JsString) : v.canon.get key = (v.get key).canon := by
  cases v with
  | obj members =>
      rw [canon_obj, get_obj, get_obj, lookup_canonMembers]
      cases members.lookup key with
      | none => rfl
      | some v => rfl
  | _ => rfl

theorem get_eq_of_canon_eq {v w : JsValue} (h : v.canon = w.canon) (key : JsString) :
    (v.get key).canon = (w.get key).canon := by
  rw [← get_canon, ← get_canon, h]

theorem canon_eq_str {v : JsValue} {s : JsString} : v.canon = .str s ↔ v = .str s := by
  cases v <;> simp

/-- A value with the canonical form of an object is an object with the same keys. -/
theorem exists_obj_perm_of_canon_eq {v : JsValue} {members : Members}
    (h : v.canon = (obj members).canon) :
    ∃ others, v = .obj others ∧ (others.map (·.1)).Perm (members.map (·.1)) := by
  cases v with
  | obj others =>
      refine ⟨others, rfl, ?_⟩
      rw [canon_obj, canon_obj, obj.injEq] at h
      have hothers := map_fst_sortMembers_perm (others.map fun m => (m.1, m.2.canon))
      have hmembers := map_fst_sortMembers_perm (members.map fun m => (m.1, m.2.canon))
      rw [List.map_map] at hothers hmembers
      rw [h] at hothers
      exact hothers.symm.trans hmembers
  | _ => simp at h

theorem exists_obj_of_canon_eq {v : JsValue} {members : Members}
    (h : v.canon = (obj members).canon) :
    ∃ others, v = .obj others ∧ ∀ m ∈ others, ∃ n ∈ members, n.1 = m.1 := by
  obtain ⟨others, rfl, hperm⟩ := exists_obj_perm_of_canon_eq h
  exact ⟨others, rfl, fun m hm =>
    List.mem_map.mp (hperm.mem_iff.mp (List.mem_map_of_mem (f := (·.1)) hm))⟩

/-- A value with the canonical form of an array is an array of values with the same canonical
forms. -/
theorem exists_arr_of_canon_eq {v : JsValue} {items : List JsValue}
    (h : v.canon = (arr items).canon) :
    ∃ others, v = .arr others ∧ others.map canon = items.map canon := by
  cases v with
  | arr others =>
      rw [canon_arr, canon_arr, arr.injEq] at h
      exact ⟨others, rfl, h⟩
  | _ => simp at h

/-- A value with the canonical form of a number is the same natural as the number. -/
theorem exists_num_of_canon_eq {v : JsValue} {n : JsNumber} (h : v.canon = (num n).canon) :
    ∃ m, v = .num m ∧ m.toNat? = n.toNat? := by
  cases v with
  | num m =>
      rw [canon_num, canon_num, num.injEq] at h
      exact ⟨m, rfl, by rw [← m.toNat?_canon, h, n.toNat?_canon]⟩
  | _ => simp at h

/-- A test that the canonical form does not change at any node holds at every node of a value
exactly when it holds at every node of the canonical form. -/
theorem every_canon {p : JsValue → Bool} (hp : ∀ v : JsValue, p v.canon = p v) (v : JsValue) :
    v.canon.every p = v.every p := by
  induction v using induct with
  | arr items ih =>
      rw [canon_arr, every_arr, every_arr, ← canon_arr, hp, List.all_map]
      congr 1
      rw [Bool.eq_iff_iff, List.all_eq_true, List.all_eq_true]
      exact forall₂_congr fun w hw => by simp [ih w hw]
  | obj members ih =>
      rw [canon_obj, every_obj, every_obj, ← canon_obj, hp]
      congr 1
      rw [Bool.eq_iff_iff, List.all_eq_true, List.all_eq_true]
      constructor
      · intro h m hm
        have := h (m.1, m.2.canon) (mem_sortMembers.mpr (List.mem_map_of_mem hm))
        rwa [← ih m hm]
      · intro h m hm
        rw [mem_sortMembers, List.mem_map] at hm
        obtain ⟨n, hn, rfl⟩ := hm
        rw [ih n hn]
        exact h n hn
  | _ => exact hp _

theorem allStrings_canon (p : JsString → Bool) (v : JsValue) :
    v.canon.allStrings p = v.allStrings p := by
  refine every_canon (fun v => ?_) v
  cases v with
  | obj members =>
      rw [canon_obj, Bool.eq_iff_iff]
      simp only [List.all_eq_true, mem_sortMembers, List.mem_map, forall_exists_index, and_imp]
      constructor
      · exact fun h m hm => h (m.1, m.2.canon) m hm rfl
      · rintro h _ m hm rfl
        exact h m hm
  | _ => simp

theorem isJson_canon (v : JsValue) : v.canon.isJson = v.isJson := by
  refine every_canon (fun v => ?_) v
  cases v with
  | num n => cases n <;> rfl
  | arr items => rw [canon_arr]
  | obj members => rw [canon_obj]
  | _ => rfl

theorem distinctKeys_canon (v : JsValue) : v.canon.distinctKeys = v.distinctKeys := by
  refine every_canon (fun v => ?_) v
  cases v with
  | obj members =>
      rw [canon_obj, decide_eq_decide]
      have h := (map_fst_sortMembers_perm (members.map fun m => (m.1, m.2.canon))).nodup_iff
      rw [List.map_map] at h
      exact h
  | num n => rfl
  | arr items => rw [canon_arr]
  | _ => rfl

end JsValue

end Js
end Xcs
