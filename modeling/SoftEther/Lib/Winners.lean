import SoftEther.Lib.KeyedRows
import SoftEther.Lib.Ranking

namespace SoftEther.Lib

open Std

/-!
# The first row of each key

Rows are sorted, and of the rows with one key the first stays. The sort is stable, so among rows
that the comparator finds equal the one that came first stays.

* `winners` — the rows that stay;
* `Unbeaten` — a row that no other row of its key comes before;
* `unbeaten_of_mem_winners` — a row that stays is one of these;
* `mem_winners_cons` — and each of these stays when it comes first;
* `winners_orderless_iff` — the order is immaterial exactly when each key has one of them.
-/

variable {α κ : Type*} {key : α → κ} {cmp : α → α → Ordering}

/-- No row of the same key comes before it. -/
structure Unbeaten (key : α → κ) (cmp : α → α → Ordering) (xs : List α) (x : α) : Prop where
  mem : x ∈ xs
  first : ∀ y ∈ xs, key y = key x → cmp y x ≠ .lt

variable {xs : List α} {x : α}

theorem Unbeaten.perm {ys : List α} (h : Unbeaten key cmp xs x) (hp : ys.Perm xs) :
    Unbeaten key cmp ys x where
  mem := hp.mem_iff.mpr h.mem
  first y hy := h.first y (hp.mem_iff.mp hy)

variable [DecidableEq κ]

/-- The first row of each key, in the order of `cmp`. -/
def winners (key : α → κ) (cmp : α → α → Ordering) (xs : List α) : List α :=
  distinctBy key (sortedWith cmp xs)

/-! ### The rows that stay -/

/-- A row that stays is before the others of its key. -/
theorem eq_or_rel_of_mem_distinctBy {R : α → α → Prop} {ys : List α} (hsorted : ys.Pairwise R)
    {y : α} (hx : x ∈ distinctBy key ys) (hy : y ∈ ys) (hkey : key y = key x) : y = x ∨ R x y := by
  induction ys with
  | nil => exact absurd hy List.not_mem_nil
  | cons z ys ih =>
    obtain ⟨hfirst, hrest⟩ := List.pairwise_cons.mp hsorted
    rcases List.mem_cons.mp hx with rfl | hx
    · rcases List.mem_cons.mp hy with rfl | hy
      · exact Or.inl rfl
      · exact Or.inr (hfirst y hy)
    · obtain ⟨hstays, hother⟩ := List.mem_filter.mp hx
      rcases List.mem_cons.mp hy with rfl | hy
      · simp [hkey] at hother
      · exact ih hrest hstays hy

/-- A row stays when none of its key is before it. -/
theorem mem_distinctBy_append {before : List α} (after : List α)
    (hnew : ∀ y ∈ before, key y ≠ key x) : x ∈ distinctBy key (before ++ x :: after) := by
  induction before with
  | nil => exact List.mem_cons_self
  | cons z before ih =>
    have hz := hnew z List.mem_cons_self
    have hrest := ih fun y hy => hnew y (List.mem_cons_of_mem z hy)
    rw [List.cons_append, distinctBy]
    exact List.mem_cons_of_mem z (List.mem_filter.mpr ⟨hrest, by simpa using hz.symm⟩)

theorem mem_of_mem_winners (hx : x ∈ winners key cmp xs) : x ∈ xs :=
  (sortedWith_perm cmp xs).mem_iff.mp ((distinctBy_sublist key _).subset hx)

theorem exists_mem_winners (hx : x ∈ xs) : ∃ y ∈ winners key cmp xs, key y = key x :=
  exists_mem_distinctBy ((sortedWith_perm cmp xs).mem_iff.mpr hx)

theorem winners_unique (xs : List α) : UniqueBy key (winners key cmp xs) :=
  uniqueBy_distinctBy key _

/-- Rows with unique keys all stay. -/
theorem mem_winners_of_unique (h : UniqueBy key xs) : x ∈ winners key cmp xs ↔ x ∈ xs := by
  rw [winners, distinctBy_of_uniqueBy (h.perm (sortedWith_perm cmp xs).symm)]
  exact (sortedWith_perm cmp xs).mem_iff

section Order

variable [TransCmp cmp]

/-- **A row that stays** is beaten by none of its key. -/
theorem unbeaten_of_mem_winners {xs : List α} {x : α} (hx : x ∈ winners key cmp xs) :
    Unbeaten key cmp xs x where
  mem := mem_of_mem_winners hx
  first := by
    intro y hy hkey hlt
    have hsorted := (sortedWith_perm cmp xs).mem_iff.mpr hy
    rcases eq_or_rel_of_mem_distinctBy (sortedWith_pairwise cmp xs) hx hsorted hkey with rfl | hle
    · have hself : cmp y y = .eq := ReflCmp.compare_self
      simp [hself] at hlt
    · have hgt : cmp x y = .gt := OrientedCmp.gt_of_lt hlt
      simp [hgt] at hle

/-- **A row that comes first** stays when it is beaten by none of its key. -/
theorem mem_winners_cons {xs : List α} {x : α} (h : Unbeaten key cmp (x :: xs) x) :
    x ∈ winners key cmp (x :: xs) := by
  have htrans : ∀ a b c, (cmp a b).isLE = true → (cmp b c).isLE = true → (cmp a c).isLE = true :=
    fun a b c hab hbc => TransCmp.isLE_trans hab hbc
  have htotal : ∀ a b, ((cmp a b).isLE || (cmp b a).isLE) = true := by
    intro a b
    rw [@OrientedCmp.eq_swap α cmp _ b a]
    cases cmp a b <;> rfl
  obtain ⟨before, after, hsorted, hrest, hbefore⟩ :=
    List.mergeSort_cons htrans htotal x xs
  rw [winners, sortedWith, hsorted]
  refine mem_distinctBy_append after fun y hy hkey => ?_
  -- the rows that the sort puts before the first one beat it
  have hmem : y ∈ xs := (List.mergeSort_perm xs _).mem_iff.mp
    (hrest ▸ List.mem_append_left after hy)
  have hgt : cmp x y = .gt := by
    have hnot := hbefore y hy
    cases hcmp : cmp x y with
    | gt => rfl
    | lt => simp [hcmp] at hnot
    | eq => simp [hcmp] at hnot
  exact h.first y (List.mem_cons_of_mem x hmem) hkey (OrientedCmp.lt_of_gt hgt)

/-- **The order is immaterial** exactly when each key has one row that no other beats. -/
theorem winners_orderless_iff (key : α → κ) (cmp : α → α → Ordering) [TransCmp cmp]
    (xs : List α) :
    (∀ ys, ys.Perm xs → ∀ x, x ∈ winners key cmp ys ↔ x ∈ winners key cmp xs) ↔
      ∀ x y, Unbeaten key cmp xs x → Unbeaten key cmp xs y → key x = key y → x = y := by
  constructor
  · intro hsame x y hx hy hkey
    -- each of the two stays when it comes first
    have hstays : ∀ z, Unbeaten key cmp xs z → z ∈ winners key cmp xs := by
      intro z hz
      obtain ⟨before, after, rfl⟩ := List.append_of_mem hz.mem
      have hp : (z :: (before ++ after)).Perm (before ++ z :: after) := List.perm_middle.symm
      exact (hsame _ hp z).mp (mem_winners_cons (hz.perm hp))
    exact (winners_unique xs).eq (hstays x hx) (hstays y hy) hkey
  · intro hone
    have hsub : ∀ ys zs, ys.Perm xs → zs.Perm xs → ∀ x, x ∈ winners key cmp ys →
        x ∈ winners key cmp zs := by
      intro ys zs hys hzs x hx
      have hbest := (unbeaten_of_mem_winners hx).perm hys.symm
      have hold : ∃ z ∈ winners key cmp zs, key z = key x :=
        exists_mem_winners (hzs.mem_iff.mpr hbest.mem)
      obtain ⟨z, hz, hkey⟩ := hold
      have hbest' := (unbeaten_of_mem_winners hz).perm hzs.symm
      rwa [hone x z hbest hbest' hkey.symm]
    intro ys hp x
    exact ⟨hsub ys xs hp (.refl xs) x, hsub xs ys (.refl xs) hp x⟩

end Order

end SoftEther.Lib
