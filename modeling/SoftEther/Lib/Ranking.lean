import Mathlib.Data.List.Nodup
import Mathlib.Data.List.SplitBy

namespace SoftEther.Lib

open Std

/-!
# The best rows under a comparator

A stable sort and its first rows, for a comparator `cmp : α → α → Ordering` that need not tell
all rows apart.

* `sortedWith` — the stable sort;
* `best` — its first rows;
* `best_isLE` — a row that is kept comes before or with every row that is left out;
* `best_perm` — when the comparator tells the rows apart, the order they came in is immaterial;
* `levelRuns` — the sorted list, split into the runs of rows that the comparator finds equal;
* `not_pairwise_of_mem_take` — a row that comes too early spoils the order;
* `stronger`, `foldl_stronger` — the row that is left when each one has to be larger than the one
  before to take its place;
* `compareBy`, `compareByDescending` — comparators that read a value, to be chained with
  `compareLex`.
-/

variable {α : Type*} (cmp : α → α → Ordering)

/-- `sortedWith`, which is stable. -/
def sortedWith (xs : List α) : List α := xs.mergeSort fun a b => (cmp a b).isLE

/-- The first `k` rows in the order of `cmp`. -/
def best (k : ℕ) (xs : List α) : List α := (sortedWith cmp xs).take k

/-- The rows that `best` leaves out. -/
def leftOut (k : ℕ) (xs : List α) : List α := (sortedWith cmp xs).drop k

theorem sortedWith_perm (xs : List α) : (sortedWith cmp xs).Perm xs := List.mergeSort_perm _ _

theorem best_append_leftOut (k : ℕ) (xs : List α) :
    (best cmp k xs ++ leftOut cmp k xs).Perm xs := by
  rw [best, leftOut, List.take_append_drop]
  exact sortedWith_perm cmp xs

theorem mem_of_mem_best {k : ℕ} {xs : List α} {x : α} (hx : x ∈ best cmp k xs) : x ∈ xs :=
  (sortedWith_perm cmp xs).mem_iff.mp (List.mem_of_mem_take hx)

@[simp] theorem length_best (k : ℕ) (xs : List α) :
    (best cmp k xs).length = min k xs.length := by
  rw [best, List.length_take, (sortedWith_perm cmp xs).length_eq]

section Order

variable [TransCmp cmp]

theorem sortedWith_pairwise (xs : List α) :
    (sortedWith cmp xs).Pairwise fun a b => (cmp a b).isLE = true := by
  refine List.pairwise_mergeSort ?_ ?_ xs
  · intro a b c hab hbc
    exact TransCmp.isLE_trans hab hbc
  · intro a b
    rw [@OrientedCmp.eq_swap α cmp _ b a]
    cases cmp a b <;> rfl

/-- **The best come first.** What is kept is before, or level with, what is left out. -/
theorem best_isLE {k : ℕ} {xs : List α} {x y : α} (hx : x ∈ best cmp k xs)
    (hy : y ∈ leftOut cmp k xs) : (cmp x y).isLE = true := by
  have hsorted := sortedWith_pairwise cmp xs
  rw [← List.take_append_drop k (sortedWith cmp xs), List.pairwise_append] at hsorted
  exact hsorted.2.2 x hx y hy

/-- When no two rows are level, sorting forgets the order the rows came in. -/
theorem sortedWith_congr {xs ys : List α} (hp : xs.Perm ys)
    (hstrict : ∀ x ∈ xs, ∀ y ∈ xs, cmp x y = .eq → x = y) :
    sortedWith cmp xs = sortedWith cmp ys := by
  have hsame : (sortedWith cmp xs).Perm (sortedWith cmp ys) :=
    ((sortedWith_perm cmp xs).trans hp).trans (sortedWith_perm cmp ys).symm
  refine hsame.eq_of_pairwise ?_ (sortedWith_pairwise cmp xs) (sortedWith_pairwise cmp ys)
  intro x y hx hy hxy hyx
  refine hstrict x ((sortedWith_perm cmp xs).mem_iff.mp hx) y ?_ ?_
  · exact hp.mem_iff.mpr ((sortedWith_perm cmp ys).mem_iff.mp hy)
  · rw [@OrientedCmp.eq_swap α cmp _ y x] at hyx
    cases hcmp : cmp x y with
    | eq => rfl
    | lt => simp [hcmp] at hyx
    | gt => simp [hcmp] at hxy

/-- **The best rows do not depend on the order of the rows.** -/
theorem best_perm {xs ys : List α} (hp : xs.Perm ys)
    (hstrict : ∀ x ∈ xs, ∀ y ∈ xs, cmp x y = .eq → x = y) (k : ℕ) :
    best cmp k xs = best cmp k ys := by
  rw [best, best, sortedWith_congr cmp hp hstrict]

/-- When no two rows are level, a kept row is strictly before each one left out. -/
theorem best_lt {k : ℕ} {xs : List α} (hnodup : xs.Nodup)
    (hstrict : ∀ x ∈ xs, ∀ y ∈ xs, cmp x y = .eq → x = y) {x y : α}
    (hx : x ∈ best cmp k xs) (hy : y ∈ leftOut cmp k xs) : cmp x y = .lt := by
  have hle := best_isLE cmp hx hy
  have hparts := (best_append_leftOut cmp k xs).nodup_iff.mpr hnodup
  have hne : x ≠ y := fun heq => (List.nodup_append.mp hparts).2.2 x hx y hy heq
  have hmem : y ∈ xs :=
    (best_append_leftOut cmp k xs).mem_iff.mp (List.mem_append_right _ hy)
  cases hcmp : cmp x y with
  | lt => rfl
  | eq => exact absurd (hstrict x (mem_of_mem_best cmp hx) y hmem hcmp) hne
  | gt => simp [hcmp] at hle

end Order

/-! ### Runs of level rows -/

section Runs

/-- The runs of level rows in the sorted list. -/
def levelRuns (xs : List α) : List (List α) :=
  (sortedWith cmp xs).splitBy fun a b => cmp a b == .eq

theorem flatten_levelRuns (xs : List α) : (levelRuns cmp xs).flatten = sortedWith cmp xs :=
  List.flatten_splitBy _ _

theorem ne_nil_of_mem_levelRuns {xs run : List α} (h : run ∈ levelRuns cmp xs) : run ≠ [] :=
  List.ne_nil_of_mem_splitBy h

variable [TransCmp cmp]

theorem level_of_mem_levelRuns {xs run : List α} (h : run ∈ levelRuns cmp xs) {a b : α}
    (ha : a ∈ run) (hb : b ∈ run) : cmp a b = .eq := by
  let Level : α → α → Prop := fun x y => cmp x y = .eq
  have htrans : IsTrans α Level := ⟨fun x y z hxy hyz => TransCmp.eq_trans hxy hyz⟩
  have hchain : run.IsChain Level := by
    have hrun := List.isChain_of_mem_splitBy h
    simpa only [beq_iff_eq] using hrun
  have hpair : run.Pairwise Level := List.isChain_iff_pairwise.mp hchain
  have hsymm : Std.Symm Level := ⟨fun x y hxy => OrientedCmp.eq_symm hxy⟩
  exact hpair.forall_of_forall (fun x _ => ReflCmp.compare_self) ha hb

/-- The rows of a run come strictly before those of the runs after it. -/
theorem levelRuns_pairwise (xs : List α) :
    (levelRuns cmp xs).Pairwise fun run next => ∀ a ∈ run, ∀ b ∈ next, cmp a b = .lt := by
  have hsorted := sortedWith_pairwise cmp xs
  rw [← flatten_levelRuns, List.pairwise_flatten] at hsorted
  have hcross := hsorted.2
  have hborder := List.isChain_getLast_head_splitBy (fun a b => cmp a b == .eq)
    (sortedWith cmp xs)
  change (levelRuns cmp xs).IsChain _ at hborder
  have hlevel : ∀ run ∈ levelRuns cmp xs, ∀ a ∈ run, ∀ b ∈ run, cmp a b = .eq :=
    fun run hrun a ha b hb => level_of_mem_levelRuns cmp hrun ha hb
  revert hcross hborder hlevel
  generalize levelRuns cmp xs = runs
  intro hcross hborder hlevel
  induction runs with
  | nil => exact List.Pairwise.nil
  | cons run runs ih =>
    rw [List.pairwise_cons] at hcross ⊢
    refine ⟨?_, ih hcross.2 hborder.tail fun r hr => hlevel r (List.mem_cons_of_mem run hr)⟩
    intro other hother a ha b hb
    cases runs with
    | nil => simp at hother
    | cons next runs =>
      obtain ⟨hrun, hnext, hne⟩ := (List.isChain_cons_cons.mp hborder).1
      -- the border of the next run is crossed strictly
      have hedge : cmp (run.getLast hrun) (next.head hnext) = .lt := by
        have hle := hcross.1 next List.mem_cons_self _ (List.getLast_mem hrun) _
          (List.head_mem hnext)
        cases hcmp : cmp (run.getLast hrun) (next.head hnext) with
        | lt => rfl
        | eq => simp [hcmp] at hne
        | gt => simp [hcmp] at hle
      have hleft := hlevel run List.mem_cons_self a ha _ (List.getLast_mem hrun)
      have hright : (cmp (next.head hnext) b).isLE = true := by
        obtain rfl | hother := List.mem_cons.mp hother
        · rw [hlevel other (by simp) _ (List.head_mem hnext) b hb]
          rfl
        · exact (List.pairwise_cons.mp hcross.2).1 other hother _ (List.head_mem hnext) b hb
      exact TransCmp.lt_of_lt_of_isLE (TransCmp.lt_of_eq_of_lt hleft hedge) hright

/-- **A row that comes too early.** Where a row stands among the first `n` although `n` rows
come strictly before it, the list is not in order. -/
theorem not_pairwise_of_mem_take {front back zs : List α} (hperm : zs.Perm (front ++ back))
    (hcross : ∀ a ∈ front, ∀ b ∈ back, cmp a b = .lt)
    (h : ∃ y ∈ zs.take front.length, y ∈ back) :
    ¬ zs.Pairwise fun a b => (cmp a b).isLE = true := by
  classical
  intro hsorted
  obtain ⟨y, hy, hback⟩ := h
  let After : α → Bool := fun z => decide (∀ a ∈ front, cmp a z = .lt)
  have hafter : ∀ {z}, After z = true ↔ ∀ a ∈ front, cmp a z = .lt := decide_eq_true_iff
  -- every row from there on comes after the whole front
  have hsplit : zs = zs.take front.length ++ zs.drop front.length :=
    (List.take_append_drop _ _).symm
  rw [hsplit, List.pairwise_append] at hsorted
  have hrest : ∀ z ∈ zs.drop front.length, After z = true := by
    intro z hz
    rw [hafter]
    intro a ha
    exact TransCmp.lt_of_lt_of_isLE (hcross a ha y hback) (hsorted.2.2 y hy z hz)
  have hdrop : (zs.drop front.length).countP After = zs.length - front.length := by
    rw [List.countP_eq_length.mpr hrest, List.length_drop]
  have htake : 0 < (zs.take front.length).countP After :=
    List.countP_pos_iff.mpr ⟨y, hy, hafter.mpr fun a ha => hcross a ha y hback⟩
  -- while only the rows of the back do
  have hfront : front.countP After = 0 := by
    rw [List.countP_eq_zero]
    intro a ha hcmp
    have hself := hafter.mp hcmp a ha
    have hrefl : cmp a a = .eq := ReflCmp.compare_self
    simp [hrefl] at hself
  have hcount := hperm.countP_eq After
  rw [hsplit, List.countP_append, List.countP_append, hdrop, hfront] at hcount
  have hlen := hperm.length_eq
  have hle : back.countP After ≤ back.length := List.countP_le_length
  rw [List.length_append] at hlen
  omega

end Runs

/-! ### The strongest row -/

section Strongest

/-- The row that is kept when another one comes: the other one if it is larger. -/
def stronger (current other : α) : α := if cmp other current = .gt then other else current

/-- **What is left is one of the rows, and none of them is larger.** -/
theorem foldl_stronger [TransCmp cmp] (x : α) (xs : List α) :
    xs.foldl (stronger cmp) x ∈ x :: xs ∧
      ∀ y ∈ x :: xs, (cmp y (xs.foldl (stronger cmp) x)).isLE = true := by
  induction xs generalizing x with
  | nil =>
    refine ⟨List.mem_cons_self, fun y hy => ?_⟩
    have hself : cmp x x = .eq := ReflCmp.compare_self
    simp [List.mem_singleton.mp hy, hself]
  | cons z xs ih =>
    obtain ⟨hmem, hbound⟩ := ih (stronger cmp x z)
    -- both rows are below the one that goes on
    have hpair : (cmp x (stronger cmp x z)).isLE = true ∧
        (cmp z (stronger cmp x z)).isLE = true := by
      have hself : ∀ a, cmp a a = .eq := fun a => ReflCmp.compare_self
      unfold stronger
      split_ifs with hz
      · have hswap : cmp x z = .lt := OrientedCmp.lt_of_gt hz
        rw [hself z, hswap]
        exact ⟨rfl, rfl⟩
      · rw [hself x, Ordering.isLE_iff_ne_gt]
        exact ⟨by simp, by simpa [Ordering.isLE_iff_ne_gt] using hz⟩
    have hkept := hbound _ List.mem_cons_self
    refine ⟨?_, fun y hy => ?_⟩
    · rcases List.mem_cons.mp hmem with h | h
      · rw [List.foldl_cons, h]
        unfold stronger
        split_ifs <;> simp
      · exact List.mem_cons_of_mem x (List.mem_cons_of_mem z h)
    · rcases List.mem_cons.mp hy with rfl | hy
      · exact TransCmp.isLE_trans hpair.1 hkept
      rcases List.mem_cons.mp hy with rfl | hy
      · exact TransCmp.isLE_trans hpair.2 hkept
      · exact hbound y (List.mem_cons_of_mem _ hy)

end Strongest

/-! ### Comparators that read a value -/

section By

variable {κ : Type*} [Ord κ] (f : α → κ)

/-- `compareBy`, `thenBy`: the smaller value first. -/
def compareBy (a b : α) : Ordering := compare (f a) (f b)

/-- `compareByDescending`, `thenByDescending`: the larger value first. -/
def compareByDescending (a b : α) : Ordering := compare (f b) (f a)

instance [TransOrd κ] : TransCmp (compareBy f) where
  eq_swap := fun {a b} => @OrientedCmp.eq_swap κ compare _ (f a) (f b)
  isLE_trans := fun {a b c} => @TransCmp.isLE_trans κ compare _ (f a) (f b) (f c)

instance [TransOrd κ] : TransCmp (compareByDescending f) where
  eq_swap := fun {a b} => @OrientedCmp.eq_swap κ compare _ (f b) (f a)
  isLE_trans := fun {a b c} hab hbc =>
    @TransCmp.isLE_trans κ compare _ (f c) (f b) (f a) hbc hab

@[simp] theorem compareBy_eq_eq [LawfulEqOrd κ] {a b : α} :
    compareBy f a b = .eq ↔ f a = f b :=
  compare_eq_iff_eq

end By

end SoftEther.Lib
