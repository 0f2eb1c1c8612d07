import Mathlib.Data.List.Nodup
import Mathlib.Data.List.Perm.Basic

namespace SoftEther.Lib

/-!
# Rows with a key

Lists of rows of which a key is read, as Kotlin's collections treat them.

* `UniqueBy key rows` — no two rows of the list share a key;
* `distinctBy` — the first row of each key;
* `associateBy` — the last row of a key;
* `overlay` — new rows in place of the old ones of the same key, the other old rows behind them.
-/

variable {α κ : Type*}

/-- No two rows share a key. -/
def UniqueBy (key : α → κ) (rows : List α) : Prop := (rows.map key).Nodup

theorem UniqueBy.eq {key : α → κ} {rows : List α} (h : UniqueBy key rows) {x y : α}
    (hx : x ∈ rows) (hy : y ∈ rows) (hkey : key x = key y) : x = y :=
  List.inj_on_of_nodup_map h hx hy hkey

theorem UniqueBy.perm {key : α → κ} {rows rows' : List α} (h : UniqueBy key rows)
    (hp : rows.Perm rows') : UniqueBy key rows' :=
  (hp.map key).nodup_iff.mp h

theorem UniqueBy.sublist {key : α → κ} {rows rows' : List α} (h : UniqueBy key rows)
    (hs : rows'.Sublist rows) : UniqueBy key rows' :=
  List.Nodup.sublist (hs.map key) h

theorem UniqueBy.nodup {key : α → κ} {rows : List α} (h : UniqueBy key rows) : rows.Nodup :=
  List.Nodup.of_map key h

/-- Two parts of a list with unique keys. -/
theorem uniqueBy_append {key : α → κ} {xs ys : List α} :
    UniqueBy key (xs ++ ys) ↔
      UniqueBy key xs ∧ UniqueBy key ys ∧ ∀ x ∈ xs, ∀ y ∈ ys, key x ≠ key y := by
  rw [UniqueBy, List.map_append, List.nodup_append]
  simp [UniqueBy]

/-- Rows that keep their keys keep their uniqueness. -/
theorem UniqueBy.map {key : α → κ} {rows : List α} (h : UniqueBy key rows) {f : α → α}
    (hf : ∀ x, key (f x) = key x) : UniqueBy key (rows.map f) := by
  rw [UniqueBy, List.map_map]
  have hsame : key ∘ f = key := by
    ext x
    exact hf x
  rwa [hsame]

section Decidable

variable [DecidableEq κ]

instance {key : α → κ} {rows : List α} : Decidable (UniqueBy key rows) :=
  inferInstanceAs (Decidable (rows.map key).Nodup)

/-- `distinctBy`: of the rows with one key the first stays. -/
def distinctBy (key : α → κ) : List α → List α
  | [] => []
  | x :: xs => x :: (distinctBy key xs).filter fun y => key y ≠ key x

theorem distinctBy_sublist (key : α → κ) (xs : List α) : (distinctBy key xs).Sublist xs := by
  induction xs with
  | nil => exact List.Sublist.slnil
  | cons x xs ih => exact (List.filter_sublist.trans ih).cons_cons x

/-- **`distinctBy` leaves one row a key.** -/
theorem uniqueBy_distinctBy (key : α → κ) (xs : List α) : UniqueBy key (distinctBy key xs) := by
  induction xs with
  | nil => exact List.nodup_nil
  | cons x xs ih =>
    rw [UniqueBy, distinctBy, List.map_cons, List.nodup_cons]
    refine ⟨?_, UniqueBy.sublist ih List.filter_sublist⟩
    rw [List.mem_map]
    rintro ⟨y, hy, hkey⟩
    simpa [hkey] using (List.mem_filter.mp hy).2

variable {key : α → κ} {x : α} {rows old : List α}

/-- A row of each key stays. -/
theorem exists_mem_distinctBy {xs : List α} (hx : x ∈ xs) :
    ∃ y ∈ distinctBy key xs, key y = key x := by
  induction xs with
  | nil => exact absurd hx List.not_mem_nil
  | cons z xs ih =>
    rcases List.mem_cons.mp hx with rfl | hrest
    · exact ⟨x, List.mem_cons_self, rfl⟩
    · obtain ⟨y, hy, hkey⟩ := ih hrest
      by_cases hz : key y = key z
      · exact ⟨z, List.mem_cons_self, by rw [← hz, hkey]⟩
      · exact ⟨y, List.mem_cons_of_mem z (List.mem_filter.mpr ⟨hy, by simpa using hz⟩), hkey⟩

/-- Rows may be left out by key before or after. -/
theorem distinctBy_filter (key : α → κ) (p : κ → Bool) (xs : List α) :
    distinctBy key (xs.filter fun x => p (key x)) =
      (distinctBy key xs).filter fun x => p (key x) := by
  induction xs with
  | nil => rfl
  | cons x xs ih =>
    by_cases hp : p (key x) = true
    · rw [List.filter_cons_of_pos (by simpa using hp), distinctBy, ih, distinctBy,
        List.filter_cons_of_pos (by simpa using hp), List.filter_filter, List.filter_filter]
      congr 1
      exact List.filter_congr fun y _ => Bool.and_comm _ _
    · rw [List.filter_cons_of_neg (by simpa using hp), ih, distinctBy,
        List.filter_cons_of_neg (by simpa using hp), List.filter_filter]
      -- a row with the key of `x` is left out by `p` as well
      refine List.filter_congr fun y _ => ?_
      by_cases hkey : key y = key x
      · simp [hkey, hp]
      · simp [hkey]

/-- Rows with unique keys stay as they are. -/
theorem distinctBy_of_uniqueBy {xs : List α} (h : UniqueBy key xs) : distinctBy key xs = xs := by
  induction xs with
  | nil => rfl
  | cons x xs ih =>
    rw [UniqueBy, List.map_cons, List.nodup_cons] at h
    rw [distinctBy, ih h.2, List.filter_eq_self.mpr]
    intro y hy
    simp only [ne_eq, decide_not, Bool.not_eq_eq_eq_not, Bool.not_true, decide_eq_false_iff_not]
    rintro hkey
    exact h.1 (hkey ▸ List.mem_map_of_mem hy)

/-- `associateBy`: of the rows with one key the last is found. -/
def associateBy (key : α → κ) (rows : List α) (k : κ) : Option α :=
  rows.reverse.find? fun x => key x = k

theorem associateBy_eq_some {k : κ} (h : associateBy key rows k = some x) :
    x ∈ rows ∧ key x = k := by
  refine ⟨List.mem_reverse.mp (List.mem_of_find?_eq_some h), ?_⟩
  simpa using List.find?_some h

theorem associateBy_eq_none {k : κ} : associateBy key rows k = none ↔ ∀ x ∈ rows, key x ≠ k := by
  simp [associateBy]

/-- With unique keys the row of a key is the one found. -/
theorem UniqueBy.associateBy (h : UniqueBy key rows) (hx : x ∈ rows) :
    associateBy key rows (key x) = some x := by
  cases hfound : Lib.associateBy key rows (key x) with
  | none => exact absurd rfl (associateBy_eq_none.mp hfound x hx)
  | some y =>
    obtain ⟨hy, hkey⟩ := associateBy_eq_some hfound
    rw [h.eq hy hx hkey]

/-! ### New rows over old ones -/

/-- The new rows, and behind them the old rows whose key none of them has. -/
def overlay (key : α → κ) (rows old : List α) : List α :=
  rows ++ old.filter fun x => key x ∉ rows.map key

theorem mem_overlay :
    x ∈ overlay key rows old ↔ x ∈ rows ∨ x ∈ old ∧ ∀ y ∈ rows, key y ≠ key x := by
  simp [overlay, List.mem_filter]

/-- **An overlay loses no key.** -/
theorem exists_mem_overlay (hx : x ∈ old) : ∃ y ∈ overlay key rows old, key y = key x := by
  by_cases h : ∃ y ∈ rows, key y = key x
  · obtain ⟨y, hy, hkey⟩ := h
    exact ⟨y, mem_overlay.mpr (Or.inl hy), hkey⟩
  · refine ⟨x, mem_overlay.mpr (Or.inr ⟨hx, ?_⟩), rfl⟩
    intro y hy hkey
    exact h ⟨y, hy, hkey⟩

theorem uniqueBy_overlay (hrows : UniqueBy key rows) (hold : UniqueBy key old) :
    UniqueBy key (overlay key rows old) := by
  rw [overlay, uniqueBy_append]
  refine ⟨hrows, hold.sublist List.filter_sublist, ?_⟩
  intro x hx y hy
  have hfresh : ∀ z ∈ rows, key z ≠ key y := by simpa using (List.mem_filter.mp hy).2
  exact hfresh x hx

end Decidable

end SoftEther.Lib
