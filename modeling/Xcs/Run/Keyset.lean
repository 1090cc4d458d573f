import Mathlib.Data.List.Forall2
import Mathlib.Data.List.Sort
import Mathlib.Data.Option.Basic

/-!
# Keyset pagination

Rows are listed in the order of a key that no two of them share, one page at a time.  A page is
asked for by the key after which it begins.  One row more than fits on it is fetched, to see whether
another page follows, and the key of the last row of the page is where that one begins.

* `Follows answers after n items` says that requests 0 to `n`, each for the position that the page
  before it named, were answered with `items` in all, and that only the last page named none.
* `follows_appended`: where every row that is added comes after those that are there, the pages
  list the rows of the last request.
* `follows_prepended`: where it comes before them, they list the rows of the first request.
* `exists_follows`: in the second case, and where no row is added, there is a last page.
* `Follows.transport` and `Follows.reflect` carry a walk over to other cursors and to other items.
-/

namespace Xcs

/-- A page of a listing, and the cursor of the next one. -/
structure Page (β γ : Type*) where
  items : List β
  next : Option γ

/-- A walk along the cursors that the pages name; `answers n` answers request `n`. -/
inductive Follows {β γ ε : Type*} :
    (ℕ → Option γ → Except ε (Page β γ)) → Option γ → ℕ → List β → Prop where
  | last {answers : ℕ → Option γ → Except ε (Page β γ)} {after : Option γ} {items : List β}
      (answer : answers 0 after = .ok ⟨items, none⟩) : Follows answers after 0 items
  | more {answers : ℕ → Option γ → Except ε (Page β γ)} {after : Option γ} {n : ℕ} {c : γ}
      {items others : List β} (answer : answers 0 after = .ok ⟨items, some c⟩)
      (rest : Follows (fun k => answers (k + 1)) (some c) n others) :
      Follows answers after (n + 1) (items ++ others)

/-- **A walk carried over.**  Where the answers of one server to related cursors are related to
those of another, so are the walks. -/
theorem Follows.transport {α β γ κ ε ε' : Type*} {R : α → β → Prop} {S : κ → γ → Prop}
    {pages : ℕ → Option κ → Except ε (Page α κ)} {answers : ℕ → Option γ → Except ε' (Page β γ)}
    (step : ∀ n k c p, Option.Rel S k c → pages n k = .ok p →
      ∃ q, answers n c = .ok q ∧ List.Forall₂ R p.items q.items ∧ Option.Rel S p.next q.next)
    {after : Option κ} {n : ℕ} {items : List α} (h : Follows pages after n items)
    {cursor : Option γ} (hcursor : Option.Rel S after cursor) :
    ∃ others, Follows answers cursor n others ∧ List.Forall₂ R items others := by
  induction h generalizing answers cursor with
  | last answer =>
      obtain ⟨⟨others, next⟩, hanswer, hitems, hnext⟩ := step 0 _ _ _ hcursor answer
      cases hnext
      exact ⟨others, .last hanswer, hitems⟩
  | more answer _ ih =>
      obtain ⟨⟨others, next⟩, hanswer, hitems, hnext⟩ := step 0 _ _ _ hcursor answer
      cases hnext with
      | some hc =>
          obtain ⟨others', hrest, hothers⟩ := ih (fun m => step (m + 1)) (.some hc)
          exact ⟨others ++ others', .more hanswer hrest, List.rel_append hitems hothers⟩

/-- The same the other way round: a walk that was observed, in terms of the cursors and items it is
related to. -/
theorem Follows.reflect {α β γ κ ε ε' : Type*} {R : α → β → Prop} {S : κ → γ → Prop}
    {pages : ℕ → Option κ → Except ε (Page α κ)} {answers : ℕ → Option γ → Except ε' (Page β γ)}
    (step : ∀ n k c q, Option.Rel S k c → answers n c = .ok q →
      ∃ p, pages n k = .ok p ∧ List.Forall₂ R p.items q.items ∧ Option.Rel S p.next q.next)
    {cursor : Option γ} {n : ℕ} {others : List β} (h : Follows answers cursor n others)
    {after : Option κ} (hafter : Option.Rel S after cursor) :
    ∃ items, Follows pages after n items ∧ List.Forall₂ R items others := by
  induction h generalizing pages after with
  | last answer =>
      obtain ⟨⟨items, next⟩, hpage, hitems, hnext⟩ := step 0 _ _ _ hafter answer
      cases hnext
      exact ⟨items, .last hpage, hitems⟩
  | more answer _ ih =>
      obtain ⟨⟨items, next⟩, hpage, hitems, hnext⟩ := step 0 _ _ _ hafter answer
      cases hnext with
      | some hk =>
          obtain ⟨items', hrest, hothers⟩ := ih (fun m => step (m + 1)) (.some hk)
          exact ⟨items ++ items', .more hpage hrest, List.rel_append hitems hothers⟩

/-- What one server answers, another may answer too. -/
theorem Follows.of_answers {β γ ε ε' : Type*} {answers : ℕ → Option γ → Except ε (Page β γ)}
    {answers' : ℕ → Option γ → Except ε' (Page β γ)}
    (step : ∀ n c p, answers n c = .ok p → answers' n c = .ok p) {cursor : Option γ} {n : ℕ}
    {items : List β} (h : Follows answers cursor n items) : Follows answers' cursor n items := by
  induction h generalizing answers' with
  | last answer => exact .last (step 0 _ _ answer)
  | more answer _ ih => exact .more (step 0 _ _ answer) (ih fun m => step (m + 1))

namespace Keyset

variable {α κ : Type*} {key : α → κ}

variable (key) in
/-- No two rows have the same key. -/
def Distinct (rows : List α) : Prop :=
  (rows.map key).Nodup

theorem Distinct.filter {rows : List α} (h : Distinct key rows) (p : α → Bool) :
    Distinct key (rows.filter p) :=
  h.sublist (List.filter_sublist.map key)

theorem Distinct.of_perm_append {rows new rows' : List α} (h : Distinct key rows')
    (hperm : rows'.Perm (rows ++ new)) : Distinct key rows ∧ Distinct key new := by
  have happend : Distinct key (rows ++ new) := (hperm.map key).nodup_iff.mp h
  rw [Distinct, List.map_append] at happend
  exact ⟨happend.of_append_left, happend.of_append_right⟩

/-- With a key there is one row. -/
theorem Distinct.filter_eq_singleton [BEq κ] [LawfulBEq κ] {rows : List α} (h : Distinct key rows)
    {row : α} (hrow : row ∈ rows) : rows.filter (fun other => key other == key row) = [row] := by
  induction rows with
  | nil => cases hrow
  | cons first rest ih =>
      obtain ⟨hnew, hrest⟩ := List.nodup_cons.mp h
      rcases List.mem_cons.mp hrow with rfl | hrow
      · rw [List.filter_cons_of_pos, List.filter_eq_nil_iff.mpr]
        · exact fun other hother hsame =>
            hnew (List.mem_map.mpr ⟨other, hother, beq_iff_eq.mp hsame⟩)
        · exact beq_self_eq_true (key row)
      · rw [List.filter_cons_of_neg, ih hrest hrow]
        exact fun hsame => hnew (List.mem_map.mpr ⟨row, hrow, (beq_iff_eq.mp hsame).symm⟩)

/-! ## Tables with a key -/

section Table

variable {p q : α → Prop} {rows : List α}

/-- The rows of a table: what each of them fulfils, and a key that no two of them share. -/
structure IsTable (p : α → Prop) (key : α → κ) (rows : List α) : Prop where
  every : ∀ row ∈ rows, p row
  keys : Distinct key rows

theorem IsTable.nil : IsTable p key [] :=
  ⟨List.forall_mem_nil _, List.nodup_nil⟩

theorem IsTable.perm {rows' : List α} (h : IsTable p key rows) (hperm : rows.Perm rows') :
    IsTable p key rows' :=
  ⟨fun row hrow => h.every row (hperm.mem_iff.mpr hrow), (hperm.map key).nodup_iff.mp h.keys⟩

theorem IsTable.mono (h : IsTable p key rows) (hpq : ∀ row, p row → q row) : IsTable q key rows :=
  ⟨fun row hrow => hpq row (h.every row hrow), h.keys⟩

/-- A row with a new key. -/
theorem IsTable.snoc (h : IsTable p key rows) {row : α} (hrow : p row)
    (hnew : ∀ other ∈ rows, key other ≠ key row) : IsTable p key (rows ++ [row]) := by
  refine ⟨fun other hother => ?_, ?_⟩
  · rcases List.mem_append.mp hother with hother | hother
    · exact h.every other hother
    · rw [List.mem_singleton.mp hother]
      exact hrow
  · rw [Distinct, List.map_append, List.map_singleton, List.nodup_append]
    refine ⟨h.keys, List.nodup_singleton _, fun k hk k' hk' => ?_⟩
    obtain ⟨other, hother, rfl⟩ := List.mem_map.mp hk
    rw [List.mem_singleton.mp hk']
    exact hnew other hother

/-- An update that leaves the keys alone. -/
theorem IsTable.update (h : IsTable p key rows) {set : α → α}
    (hset : ∀ row ∈ rows, p row → p (set row)) (hkey : ∀ row, key (set row) = key row) :
    IsTable p key (rows.map set) := by
  refine ⟨fun row hrow => ?_, ?_⟩
  · obtain ⟨row, hmem, rfl⟩ := List.mem_map.mp hrow
    exact hset row hmem (h.every row hmem)
  · have hkeys : (rows.map set).map key = rows.map key := by
      rw [List.map_map]
      exact List.map_congr_left fun row _ => hkey row
    rw [Distinct, hkeys]
    exact h.keys

/-- Where the place of a row determines its key, no two rows are at one place. -/
theorem IsTable.distinct_of_determines {π : Type*} {place : α → π} (h : IsTable p key rows)
    (hplace : ∀ a b, p a → p b → place a = place b → key a = key b) : Distinct place rows := by
  refine List.Nodup.map_on (fun a ha b hb hsame => ?_) h.keys.of_map
  exact List.inj_on_of_nodup_map h.keys ha hb (hplace a b (h.every a ha) (h.every b hb) hsame)

end Table

variable [LinearOrder κ]

/-! ## The order of the rows -/

section

variable (key)

/-- `ORDER BY key` -/
def ordered (rows : List α) : List α :=
  rows.insertionSort fun a b => key a ≤ key b

/-- A row comes after a position; every row comes after none. -/
def isBeyond (after : Option κ) (a : α) : Bool :=
  after.all fun k => decide (k < key a)

/-- The rows after a position, in order. -/
def listing (after : Option κ) (rows : List α) : List α :=
  ordered key (rows.filter (isBeyond key after))

end

theorem perm_ordered (rows : List α) : (ordered key rows).Perm rows :=
  List.perm_insertionSort _ rows

theorem mem_ordered {rows : List α} {a : α} : a ∈ ordered key rows ↔ a ∈ rows :=
  (perm_ordered rows).mem_iff

theorem pairwise_le_ordered (rows : List α) :
    (ordered key rows).Pairwise fun a b => key a ≤ key b := by
  have : Std.Total fun a b => key a ≤ key b := ⟨fun a b => le_total (key a) (key b)⟩
  have : IsTrans α fun a b => key a ≤ key b := ⟨fun _ _ _ => le_trans⟩
  exact List.pairwise_insertionSort _ rows

/-- The first row is one with the least key. -/
theorem le_of_head?_ordered {rows : List α} {a : α} (h : (ordered key rows).head? = some a) :
    a ∈ rows ∧ ∀ b ∈ rows, key a ≤ key b := by
  obtain ⟨rest, hordered⟩ := List.head?_eq_some_iff.mp h
  have hle : (ordered key rows).Pairwise fun a b => key a ≤ key b := pairwise_le_ordered rows
  have hmem : ∀ b, b ∈ ordered key rows ↔ b ∈ rows := fun b => mem_ordered
  rw [hordered] at hle hmem
  refine ⟨(hmem a).mp (List.mem_cons_self ..), fun b hb => ?_⟩
  rcases List.mem_cons.mp ((hmem b).mpr hb) with rfl | hrest
  · exact le_rfl
  · exact (List.pairwise_cons.mp hle).1 b hrest

theorem distinct_of_pairwise {rows : List α} (h : rows.Pairwise fun a b => key a < key b) :
    Distinct key rows := by
  rw [Distinct, List.Nodup, List.pairwise_map]
  exact h.imp fun hlt => hlt.ne

theorem pairwise_ordered {rows : List α} (h : Distinct key rows) :
    (ordered key rows).Pairwise fun a b => key a < key b := by
  have hne : (ordered key rows).Pairwise fun a b => key a ≠ key b := by
    rw [← List.pairwise_map]
    exact ((perm_ordered rows).map key).nodup_iff.mpr h
  exact ((pairwise_le_ordered rows).and hne).imp fun hab => lt_of_le_of_ne hab.1 hab.2

/-- The rows in the order of their keys are determined by what rows they are. -/
theorem ordered_eq {rows l : List α} (hperm : l.Perm rows)
    (hsorted : l.Pairwise fun a b => key a < key b) : ordered key rows = l := by
  have hdistinct := distinct_of_pairwise hsorted
  refine List.Perm.eq_of_pairwise (fun a b ha hb hab hba => ?_) (pairwise_le_ordered rows)
    (hsorted.imp le_of_lt) ((perm_ordered rows).trans hperm.symm)
  have ha : a ∈ l := hperm.mem_iff.mpr (mem_ordered.mp ha)
  exact List.inj_on_of_nodup_map hdistinct ha hb (le_antisymm hab hba)

/-- Where no two rows share a key, their order does not depend on how they were stored. -/
theorem ordered_of_perm {rows rows' : List α} (h : Distinct key rows) (hperm : rows'.Perm rows) :
    ordered key rows' = ordered key rows :=
  ordered_eq ((perm_ordered rows).trans hperm.symm) (pairwise_ordered h)

/-- A finer key decides nothing where no two rows share the coarser one. -/
theorem ordered_of_finer {κ' : Type*} [LinearOrder κ'] {key' : α → κ'}
    (hlt : ∀ a b, key a < key b → key' a < key' b) {rows : List α} (h : Distinct key rows) :
    ordered key' rows = ordered key rows :=
  ordered_eq (perm_ordered rows) ((pairwise_ordered h).imp fun hab => hlt _ _ hab)

theorem ordered_map {β : Type*} {g : α → β} {key' : β → κ} (hg : ∀ a, key' (g a) = key a)
    {rows : List α} (h : Distinct key rows) :
    ordered key' (rows.map g) = (ordered key rows).map g := by
  refine ordered_eq ((perm_ordered rows).map g) (List.pairwise_map.mpr ?_)
  simp only [hg]
  exact pairwise_ordered h

/-- **Ordered rows are told apart by what the unordered ones hold.**  `f` and `f'` show of two rows
the same exactly when `g` does. -/
theorem map_ordered_eq_iff {β γ : Type*} {f f' : α → β} {g : α → γ} {key' : γ → κ}
    (hg : ∀ a, key' (g a) = key a) {rows rows' : List α} (h : Distinct key rows)
    (h' : Distinct key rows') (hfg : ∀ a ∈ rows, ∀ b ∈ rows', f a = f' b ↔ g a = g b) :
    (ordered key rows).map f = (ordered key rows').map f' ↔
      (rows.map g).Perm (rows'.map g) := by
  have hpointwise : ∀ {xs ys : List α}, (∀ a ∈ xs, a ∈ rows) → (∀ b ∈ ys, b ∈ rows') →
      (xs.map f = ys.map f' ↔ xs.map g = ys.map g) := by
    intro xs ys hxs hys
    induction xs generalizing ys with
    | nil => cases ys <;> simp
    | cons a xs ih =>
        cases ys with
        | nil => simp
        | cons b ys =>
            rw [List.forall_mem_cons] at hxs hys
            simp only [List.map_cons, List.cons.injEq]
            exact and_congr (hfg a hxs.1 b hys.1) (ih hxs.2 hys.2)
  rw [hpointwise (fun _ => mem_ordered.mp) fun _ => mem_ordered.mp]
  constructor
  · intro heq
    have hrows : (rows.map g).Perm ((ordered key rows).map g) := ((perm_ordered rows).map g).symm
    rw [heq] at hrows
    exact hrows.trans ((perm_ordered rows').map g)
  · intro hperm
    have hdistinct : Distinct key' (rows'.map g) := by
      rw [Distinct, List.map_map]
      simp only [Function.comp_def, hg]
      exact h'
    rw [← ordered_map hg h, ← ordered_map hg h', ordered_of_perm hdistinct hperm]

theorem listing_eq_filter {rows : List α} (h : Distinct key rows) (after : Option κ) :
    listing key after rows = (ordered key rows).filter (isBeyond key after) :=
  ordered_eq ((perm_ordered rows).filter _) ((pairwise_ordered h).filter _)

theorem listing_none (rows : List α) : listing key none rows = ordered key rows := by
  have hall : rows.filter (isBeyond key none) = rows := List.filter_eq_self.mpr fun _ _ => rfl
  rw [listing, hall]

theorem pairwise_listing {rows : List α} (h : Distinct key rows) (after : Option κ) :
    (listing key after rows).Pairwise fun a b => key a < key b :=
  pairwise_ordered (h.filter _)

theorem mem_listing {rows : List α} {after : Option κ} {a : α} :
    a ∈ listing key after rows ↔ a ∈ rows ∧ isBeyond key after a = true := by
  rw [listing, mem_ordered, List.mem_filter]

/-- The rows after one that comes after a position are among those after the position. -/
theorem listing_some_eq_filter {rows : List α} (h : Distinct key rows) {after : Option κ} {k : κ}
    (hk : ∀ j ∈ after, j < k) :
    listing key (some k) rows
      = (listing key after rows).filter (isBeyond key (some k)) := by
  rw [listing_eq_filter h, listing_eq_filter h, List.filter_filter]
  refine List.filter_congr fun a _ => ?_
  by_cases hbeyond : isBeyond key (some k) a = true
  · have hlt : k < key a := of_decide_eq_true hbeyond
    have hafter : isBeyond key after a = true := by
      cases after with
      | none => rfl
      | some j => exact decide_eq_true ((hk j rfl).trans hlt)
    rw [hbeyond, hafter]
    rfl
  · rw [Bool.not_eq_true] at hbeyond
    rw [hbeyond, Bool.false_and]

/-! ## Pages -/

variable (key) in
/-- The page made of the rows that were fetched. -/
def pageOf (limit : ℕ) (found : List α) : Page α κ :=
  if limit < found.length then ⟨found.take limit, (found.take limit).getLast?.map key⟩
  else ⟨found, none⟩

variable (key) in
/-- The page after a position. -/
def page (limit : ℕ) (rows : List α) (after : Option κ) : Page α κ :=
  pageOf key limit ((listing key after rows).take (limit + 1))

theorem page_eq (limit : ℕ) (rows : List α) (after : Option κ) :
    page key limit rows after
      = if limit < (listing key after rows).length then
          ⟨(listing key after rows).take limit,
            ((listing key after rows).take limit).getLast?.map key⟩
        else ⟨listing key after rows, none⟩ := by
  rw [page, pageOf, List.length_take, List.take_take]
  by_cases h : limit < (listing key after rows).length
  · rw [if_pos h, if_pos (by omega), Nat.min_eq_left (by omega)]
  · rw [if_neg h, if_neg (by omega), List.take_of_length_le (by omega)]

/-- A page that names no next one has every row after its position. -/
theorem items_of_last {limit : ℕ} (hlimit : 1 ≤ limit) {rows items : List α} {after : Option κ}
    (h : page key limit rows after = ⟨items, none⟩) : items = listing key after rows := by
  rw [page_eq] at h
  split_ifs at h with hlt
  · simp only [Page.mk.injEq, Option.map_eq_none_iff, List.getLast?_eq_none_iff,
      List.take_eq_nil_iff] at h
    obtain ⟨-, hzero | hnil⟩ := h
    · omega
    · rw [hnil, List.length_nil] at hlt
      omega
  · exact (congrArg Page.items h).symm

/-- A page that names a next one has the first rows, and the next begins after the last of them. -/
theorem items_of_more {limit : ℕ} {rows items : List α} {after : Option κ} {k : κ}
    (h : page key limit rows after = ⟨items, some k⟩) :
    ∃ front a, items = front ++ [a] ∧ key a = k ∧ items <+: listing key after rows := by
  rw [page_eq] at h
  split_ifs at h with hlt
  · simp only [Page.mk.injEq, Option.map_eq_some_iff] at h
    obtain ⟨rfl, a, hlast, hk⟩ := h
    obtain ⟨front, hfront⟩ := List.getLast?_eq_some_iff.mp hlast
    exact ⟨front, a, hfront, hk, List.take_prefix _ _⟩
  · simp at h

/-- The first rows of a sorted list and those after the last of them. -/
theorem append_filter_isBeyond {front l : List α} {a : α} (hinitial : front ++ [a] <+: l)
    (hsorted : l.Pairwise fun a b => key a < key b) :
    front ++ [a] ++ l.filter (isBeyond key (some (key a))) = l := by
  obtain ⟨rest, rfl⟩ := hinitial
  rw [List.pairwise_append, List.pairwise_append] at hsorted
  obtain ⟨⟨-, -, hfront⟩, -, hrest⟩ := hsorted
  have hnot : (front ++ [a]).filter (isBeyond key (some (key a))) = [] := by
    rw [List.filter_eq_nil_iff]
    intro b hb hbeyond
    have hlt : key a < key b := of_decide_eq_true hbeyond
    rcases List.mem_append.mp hb with hb | hb
    · exact lt_asymm hlt (hfront b hb a List.mem_cons_self)
    · rw [List.mem_singleton.mp hb] at hlt
      exact lt_irrefl _ hlt
  have hall : rest.filter (isBeyond key (some (key a))) = rest := by
    rw [List.filter_eq_self]
    intro b hb
    exact decide_eq_true (hrest a (List.mem_append_right _ List.mem_cons_self) b hb)
  rw [List.filter_append, hnot, hall, List.nil_append]

/-- **One page.**  The rows of a page and the rows after it are those after its position, also
where the rows after it are read from a later state of the table. -/
theorem items_append_listing {limit : ℕ} {rows rows' items : List α} {after : Option κ} {k : κ}
    (h : page key limit rows after = ⟨items, some k⟩) (hdistinct : Distinct key rows')
    (hinitial : listing key after rows <+: listing key after rows') :
    items ++ listing key (some k) rows' = listing key after rows' := by
  obtain ⟨front, a, rfl, rfl, hitems⟩ := items_of_more h
  have hlast : a ∈ listing key after rows := hitems.mem (by simp)
  have hafter : ∀ j ∈ after, j < key a := by
    rintro j rfl
    exact of_decide_eq_true (mem_listing.mp hlast).2
  rw [listing_some_eq_filter hdistinct hafter]
  exact append_filter_isBeyond (hitems.trans hinitial) (pairwise_listing hdistinct after)

/-! ## Tables that grow -/

variable (key) in
/-- Rows were added, each of them after those that were there. -/
def Appended (rows rows' : List α) : Prop :=
  ∃ new, rows'.Perm (rows ++ new) ∧ ∀ a ∈ rows, ∀ b ∈ new, key a < key b

variable (key) in
/-- Rows were added, each of them before those that were there. -/
def Prepended (rows rows' : List α) : Prop :=
  ∃ new, rows'.Perm (rows ++ new) ∧ ∀ a ∈ rows, ∀ b ∈ new, key b < key a

theorem Appended.refl (rows : List α) : Appended key rows rows :=
  ⟨[], by rw [List.append_nil], fun _ _ _ hb => absurd hb List.not_mem_nil⟩

theorem Appended.trans {xs ys zs : List α} (h : Appended key xs ys) (h' : Appended key ys zs) :
    Appended key xs zs := by
  obtain ⟨new, hperm, hlt⟩ := h
  obtain ⟨new', hperm', hlt'⟩ := h'
  refine ⟨new ++ new', ?_, fun a ha b hb => ?_⟩
  · rw [← List.append_assoc]
    exact hperm'.trans (hperm.append_right new')
  · rcases List.mem_append.mp hb with hb | hb
    · exact hlt a ha b hb
    · exact hlt' a (hperm.mem_iff.mpr (List.mem_append_left _ ha)) b hb

theorem Prepended.refl (rows : List α) : Prepended key rows rows :=
  ⟨[], by rw [List.append_nil], fun _ _ _ hb => absurd hb List.not_mem_nil⟩

theorem Prepended.trans {xs ys zs : List α} (h : Prepended key xs ys)
    (h' : Prepended key ys zs) : Prepended key xs zs := by
  obtain ⟨new, hperm, hlt⟩ := h
  obtain ⟨new', hperm', hlt'⟩ := h'
  refine ⟨new ++ new', ?_, fun a ha b hb => ?_⟩
  · rw [← List.append_assoc]
    exact hperm'.trans (hperm.append_right new')
  · rcases List.mem_append.mp hb with hb | hb
    · exact hlt a ha b hb
    · exact hlt' a (hperm.mem_iff.mpr (List.mem_append_left _ ha)) b hb

/-- The first table of a growing sequence and a later one. -/
theorem Appended.of_step {rows : ℕ → List α} (h : ∀ n, Appended key (rows n) (rows (n + 1))) :
    ∀ n, Appended key (rows 0) (rows n) := by
  intro n
  induction n with
  | zero => exact .refl _
  | succ n ih => exact ih.trans (h n)

theorem Prepended.of_step {rows : ℕ → List α} (h : ∀ n, Prepended key (rows n) (rows (n + 1))) :
    ∀ n, Prepended key (rows 0) (rows n) := by
  intro n
  induction n with
  | zero => exact .refl _
  | succ n ih => exact ih.trans (h n)

theorem Appended.listing_initial {rows rows' : List α} (h : Appended key rows rows')
    (hdistinct : Distinct key rows') (after : Option κ) :
    listing key after rows <+: listing key after rows' := by
  obtain ⟨new, hperm, hlt⟩ := h
  obtain ⟨hrows, hnew⟩ := hdistinct.of_perm_append hperm
  have hordered : ordered key rows' = ordered key rows ++ ordered key new := by
    refine ordered_eq (((perm_ordered rows).append (perm_ordered new)).trans hperm.symm) ?_
    refine List.pairwise_append.mpr ⟨pairwise_ordered hrows, pairwise_ordered hnew, ?_⟩
    intro a ha b hb
    exact hlt a (mem_ordered.mp ha) b (mem_ordered.mp hb)
  rw [listing_eq_filter hrows, listing_eq_filter hdistinct, hordered, List.filter_append]
  exact List.prefix_append _ _

/-- After a row that was there, nothing was added. -/
theorem Prepended.listing_eq {rows rows' : List α} (h : Prepended key rows rows')
    (hdistinct : Distinct key rows') {a : α} (ha : a ∈ rows) :
    listing key (some (key a)) rows' = listing key (some (key a)) rows := by
  obtain ⟨new, hperm, hlt⟩ := h
  obtain ⟨hrows, -⟩ := hdistinct.of_perm_append hperm
  have hnone : new.filter (isBeyond key (some (key a))) = [] := by
    rw [List.filter_eq_nil_iff]
    intro b hb hbeyond
    exact lt_asymm (hlt a ha b hb) (of_decide_eq_true hbeyond)
  refine ordered_eq ?_ (pairwise_listing hrows _)
  refine (perm_ordered _).trans ?_
  have hfilter := hperm.filter (isBeyond key (some (key a)))
  rw [List.filter_append, hnone, List.append_nil] at hfilter
  exact hfilter.symm

/-! ## Walks -/

variable {ε : Type*} {limit : ℕ}

variable (key) in
/-- The server that answers request `n` from the table at that time. -/
def pages (limit : ℕ) (rows : ℕ → List α) (n : ℕ) (after : Option κ) : Except ε (Page α κ) :=
  .ok (page key limit (rows n) after)

/-- **Rows added behind.**  The pages list what the table holds at the last request. -/
theorem follows_appended (hlimit : 1 ≤ limit) {rows : ℕ → List α}
    (hdistinct : ∀ n, Distinct key (rows n)) (hgrow : ∀ n, Appended key (rows n) (rows (n + 1)))
    {after : Option κ} {n : ℕ} {items : List α}
    (h : Follows (pages key limit rows : ℕ → _ → Except ε _) after n items) :
    items = listing key after (rows n) := by
  induction n generalizing rows after items with
  | zero =>
      cases h with
      | last answer => exact items_of_last hlimit (Except.ok.inj answer)
  | succ n ih =>
      cases h with
      | more answer rest =>
          rw [ih (fun m => hdistinct (m + 1)) (fun m => hgrow (m + 1)) rest]
          exact items_append_listing (Except.ok.inj answer) (hdistinct (n + 1))
            ((Appended.of_step hgrow (n + 1)).listing_initial (hdistinct (n + 1)) after)

/-- What the pages list after a position at which nothing was added. -/
theorem follows_listing (hlimit : 1 ≤ limit) {reference : List α} {rows : ℕ → List α}
    (hreference : Distinct key reference) (hdistinct : ∀ n, Distinct key (rows n))
    (hgrow : ∀ n, Prepended key reference (rows n)) {after : Option κ}
    (hafter : listing key after (rows 0) = listing key after reference) {n : ℕ} {items : List α}
    (h : Follows (pages key limit rows : ℕ → _ → Except ε _) after n items) :
    items = listing key after reference := by
  induction n generalizing rows after items with
  | zero =>
      cases h with
      | last answer =>
          rw [← hafter]
          exact items_of_last hlimit (Except.ok.inj answer)
  | succ n ih =>
      cases h with
      | more answer rest =>
          obtain ⟨front, a, hitems, hkey, hinitial⟩ := items_of_more (Except.ok.inj answer)
          have ha : a ∈ reference := by
            rw [hafter] at hinitial
            exact (mem_listing.mp (hinitial.mem (by rw [hitems]; simp))).1
          subst hkey
          rw [ih (fun m => hdistinct (m + 1)) (fun m => hgrow (m + 1))
            ((hgrow 1).listing_eq (hdistinct 1) ha) rest]
          exact items_append_listing (Except.ok.inj answer) hreference
            ⟨[], by rw [List.append_nil, hafter]⟩

/-- **Rows added in front.**  The pages list what the table held at the first request. -/
theorem follows_prepended (hlimit : 1 ≤ limit) {rows : ℕ → List α}
    (hdistinct : ∀ n, Distinct key (rows n))
    (hgrow : ∀ n, Prepended key (rows n) (rows (n + 1))) {n : ℕ} {items : List α}
    (h : Follows (pages key limit rows : ℕ → _ → Except ε _) none n items) :
    items = ordered key (rows 0) := by
  rw [← listing_none]
  exact follows_listing hlimit (hdistinct 0) hdistinct (Prepended.of_step hgrow) rfl h

/-- **The walk ends.**  Each page takes at least one row away. -/
theorem exists_follows {reference : List α} {rows : ℕ → List α}
    (hreference : Distinct key reference) (hdistinct : ∀ n, Distinct key (rows n))
    (hgrow : ∀ n, Prepended key reference (rows n)) {after : Option κ}
    (hafter : listing key after (rows 0) = listing key after reference) :
    ∃ n items, Follows (pages key limit rows : ℕ → _ → Except ε _) after n items := by
  induction hlength : (listing key after reference).length using Nat.strong_induction_on
    generalizing rows after with
  | _ length ih =>
      rcases hpage : page key limit (rows 0) after with ⟨items, next⟩
      cases next with
      | none => exact ⟨0, items, .last (congrArg Except.ok hpage)⟩
      | some k =>
          obtain ⟨front, a, hitems, hkey, hinitial⟩ := items_of_more hpage
          have ha : a ∈ reference := by
            rw [hafter] at hinitial
            exact (mem_listing.mp (hinitial.mem (by rw [hitems]; simp))).1
          have hshorter : (listing key (some k) reference).length < length := by
            have hsplit := items_append_listing hpage hreference
              ⟨[], by rw [List.append_nil, hafter]⟩
            rw [← hlength, ← hsplit, hitems, List.length_append, List.length_append,
              List.length_singleton]
            omega
          subst hkey
          obtain ⟨n, others, hrest⟩ := ih _ hshorter (fun m => hdistinct (m + 1))
            (fun m => hgrow (m + 1)) ((hgrow 1).listing_eq (hdistinct 1) ha) rfl
          exact ⟨n + 1, items ++ others, .more (congrArg Except.ok hpage) hrest⟩

end Keyset
end Xcs
