import Mathlib.Data.List.DropRight
import Mathlib.Order.Lattice

namespace SoftEther.Lib

/-!
# Insertion passes over rows of which some have no key

An insertion pass takes the rows one after the other and moves each to the left, past the rows
with a larger key. A row without a key neither moves nor lets another row past it.

* `settle` — one row finds its place among the rows before it;
* `insertionPass` — the pass over a list;
* `insertionPass_stretch` — the rows of a stretch between two barriers are sorted in place;
* `foldl_settle_append` — when the rows that stand before a pass are left alone;
* `exists_mem_take_foldl_settle` — and when a row escapes to them.
-/

section Ends

variable {α : Type*} {p : α → Bool}

theorem rdropWhile_append_of_exists {xs ys : List α} (h : ∃ y ∈ ys, p y = false) :
    (xs ++ ys).rdropWhile p = xs ++ ys.rdropWhile p := by
  obtain ⟨y, hy, hpy⟩ := h
  have hne : ys.reverse.dropWhile p ≠ [] := by
    intro hnil
    have hall := List.dropWhile_eq_nil_iff.mp hnil y (List.mem_reverse.mpr hy)
    simp [hpy] at hall
  simp [List.rdropWhile, List.dropWhile_append, hne]

theorem rtakeWhile_append_of_exists {xs ys : List α} (h : ∃ y ∈ ys, p y = false) :
    (xs ++ ys).rtakeWhile p = ys.rtakeWhile p := by
  obtain ⟨y, hy, hpy⟩ := h
  have hne : (ys.reverse.takeWhile p).length ≠ ys.reverse.length := by
    intro hlen
    have hself := (List.takeWhile_prefix p (l := ys.reverse)).eq_of_length hlen
    have hall := List.takeWhile_eq_self_iff.mp hself y (List.mem_reverse.mpr hy)
    simp [hpy] at hall
  simp only [List.rtakeWhile, List.reverse_append, List.takeWhile_append, if_neg hne]

theorem rdropWhile_append_of_all {xs ys : List α} (h : ∀ y ∈ ys, p y = true) :
    (xs ++ ys).rdropWhile p = xs.rdropWhile p := by
  have hnil : ys.reverse.dropWhile p = [] := by
    rw [List.dropWhile_eq_nil_iff]
    intro y hy
    exact h y (List.mem_reverse.mp hy)
  simp [List.rdropWhile, List.dropWhile_append, hnil]

theorem rtakeWhile_append_of_all {xs ys : List α} (h : ∀ y ∈ ys, p y = true) :
    (xs ++ ys).rtakeWhile p = xs.rtakeWhile p ++ ys := by
  have hself : ys.reverse.takeWhile p = ys.reverse := by
    rw [List.takeWhile_eq_self_iff]
    intro y hy
    exact h y (List.mem_reverse.mp hy)
  simp [List.rtakeWhile, List.takeWhile_append, hself]

/-- What `rdropWhile` leaves ends in a row that `p` does not hold of. -/
theorem length_rdropWhile_lt {xs : List α} {x : α} (hlast : x ∈ xs.getLast?) (hx : p x = true) :
    (xs.rdropWhile p).length < xs.length := by
  obtain ⟨ys, rfl⟩ := List.getLast?_eq_some_iff.mp hlast
  rw [List.rdropWhile_concat_pos p ys x hx, List.length_append, List.length_singleton]
  have hle := (List.rdropWhile_prefix p ys).length_le
  omega

end Ends

variable {α κ : Type*} [LinearOrder κ] (key : α → Option κ)

/-- A row with the key `k` moves past `y`. -/
def passes (k : κ) (y : α) : Bool := (key y).any fun p => decide (k < p)

/-- A row that stands last finds its place. -/
def settle (acc : List α) (x : α) : List α :=
  match key x with
  | none => acc ++ [x]
  | some k => acc.rdropWhile (passes key k) ++ x :: acc.rtakeWhile (passes key k)

/-- The pass over a list. -/
def insertionPass (xs : List α) : List α := xs.foldl (settle key) []

variable {key} {acc xs ys : List α} {x y : α} {k : κ}

theorem settle_of_none (hx : key x = none) : settle key acc x = acc ++ [x] := by
  simp [settle, hx]

theorem settle_of_some (hx : key x = some k) :
    settle key acc x = acc.rdropWhile (passes key k) ++ x :: acc.rtakeWhile (passes key k) := by
  simp [settle, hx]

theorem passes_eq_true : passes key k y = true ↔ ∃ p, key y = some p ∧ k < p := by
  simp [passes, Option.any_eq_true]

theorem settle_perm (acc : List α) (x : α) : (settle key acc x).Perm (acc ++ [x]) := by
  cases hx : key x with
  | none => rw [settle_of_none hx]
  | some k =>
    have hparts := List.rdropWhile_append_rtakeWhile (p := passes key k) (l := acc)
    calc settle key acc x
        = acc.rdropWhile (passes key k) ++ x :: acc.rtakeWhile (passes key k) := settle_of_some hx
      List.Perm _ (x :: (acc.rdropWhile (passes key k) ++ acc.rtakeWhile (passes key k))) :=
          List.perm_middle
      List.Perm _ (x :: acc) := by rw [hparts]
      List.Perm _ (acc ++ [x]) := (List.perm_append_singleton x acc).symm

theorem mem_settle : y ∈ settle key acc x ↔ y ∈ acc ∨ y = x := by
  rw [(settle_perm acc x).mem_iff, List.mem_append, List.mem_singleton]

theorem foldl_settle_perm (acc xs : List α) : (xs.foldl (settle key) acc).Perm (acc ++ xs) := by
  induction xs generalizing acc with
  | nil => simp
  | cons x xs ih =>
    rw [List.foldl_cons]
    refine (ih (settle key acc x)).trans ?_
    rw [List.append_cons acc x xs]
    exact (settle_perm acc x).append_right xs

theorem insertionPass_perm (xs : List α) : (insertionPass key xs).Perm xs := by
  have hperm : (xs.foldl (settle key) []).Perm ([] ++ xs) := foldl_settle_perm [] xs
  rwa [List.nil_append] at hperm

@[simp] theorem length_insertionPass (xs : List α) :
    (insertionPass key xs).length = xs.length :=
  (insertionPass_perm xs).length_eq

/-! ### What stands before the rows -/

/-- A row does not leave `acc` when it stops inside, or at the last row before. -/
theorem settle_append {pre : List α}
    (h : ∀ k, key x = some k → (∀ y ∈ acc, passes key k y = true) →
      ∀ p ∈ pre.getLast?, passes key k p = false) :
    settle key (pre ++ acc) x = pre ++ settle key acc x := by
  cases hx : key x with
  | none => simp [settle_of_none hx]
  | some k =>
    rw [settle_of_some hx, settle_of_some hx]
    by_cases hstop : ∃ y ∈ acc, passes key k y = false
    · rw [rdropWhile_append_of_exists hstop, rtakeWhile_append_of_exists hstop]
      simp
    · have hall : ∀ y ∈ acc, passes key k y = true := by simpa using hstop
      have hlast := h k hx hall
      have hdrop : pre.rdropWhile (passes key k) = pre := by
        rw [List.rdropWhile_eq_self_iff]
        intro hne
        simpa using hlast _ (List.getLast?_eq_getLast_of_ne_nil hne)
      have htake : pre.rtakeWhile (passes key k) = [] := by
        rw [List.rtakeWhile_eq_nil_iff]
        intro hne
        simpa using hlast _ (List.getLast?_eq_getLast_of_ne_nil hne)
      rw [rdropWhile_append_of_all hall, rtakeWhile_append_of_all hall, hdrop, htake]
      have hdrop' : acc.rdropWhile (passes key k) = [] := List.rdropWhile_eq_nil_iff.mpr hall
      have htake' : acc.rtakeWhile (passes key k) = acc := List.rtakeWhile_eq_self_iff.mpr hall
      rw [hdrop', htake']
      simp

/-- **The rows that stand before are left alone** when every row that could move past all of its
own stops at the last of them. It moves past all of its own only while these all have a key. -/
theorem foldl_settle_append {pre : List α} (hy : y ∈ acc)
    (h : ∀ l x r, xs = l ++ x :: r → (∀ z ∈ acc ++ l, (key z).isSome) → ∀ k, key x = some k →
      passes key k y = true → ∀ p ∈ pre.getLast?, passes key k p = false) :
    xs.foldl (settle key) (pre ++ acc) = pre ++ xs.foldl (settle key) acc := by
  induction xs generalizing acc with
  | nil => rfl
  | cons x xs ih =>
    rw [List.foldl_cons, List.foldl_cons]
    have hfirst : settle key (pre ++ acc) x = pre ++ settle key acc x := by
      apply settle_append
      intro k hk hall
      refine h [] x xs rfl ?_ k hk (hall y hy)
      intro z hz
      obtain ⟨p, hp, -⟩ := passes_eq_true.mp (hall z (by simpa using hz))
      simp [hp]
    rw [hfirst]
    apply ih (mem_settle.mpr (.inl hy))
    intro l x' r hxs hkeys k hk hpass
    refine h (x :: l) x' r (by rw [hxs]; rfl) ?_ k hk hpass
    intro z hz
    apply hkeys z
    simp only [List.mem_append, List.mem_cons, mem_settle] at hz ⊢
    tauto

/-- The first rows of a list with one more row settled: that row is among them, or they are as
they were. -/
theorem take_settle (acc : List α) (x : α) {n : ℕ} (hn : n ≤ acc.length) :
    x ∈ (settle key acc x).take n ∨ (settle key acc x).take n = acc.take n := by
  cases hx : key x with
  | none =>
    right
    rw [settle_of_none hx, List.take_append_of_le_length hn]
  | some k =>
    rw [settle_of_some hx]
    have hparts := List.rdropWhile_append_rtakeWhile (p := passes key k) (l := acc)
    by_cases hlen : n ≤ (acc.rdropWhile (passes key k)).length
    · right
      rw [List.take_append_of_le_length hlen]
      nth_rewrite 2 [← hparts]
      rw [List.take_append_of_le_length hlen]
    · left
      rw [List.take_append]
      apply List.mem_append_right
      have hpos : 0 < n - (acc.rdropWhile (passes key k)).length := by omega
      obtain ⟨m, hm⟩ := Nat.exists_eq_succ_of_ne_zero hpos.ne'
      simp [hm]

/-- A row that stands among the first keeps the company of rows of its own kind. -/
theorem exists_mem_take_foldl_settle {n : ℕ} {P : α → Prop} (hn : n ≤ acc.length)
    (hxs : ∀ x ∈ xs, P x) (h : ∃ y ∈ acc.take n, P y) :
    ∃ y ∈ (xs.foldl (settle key) acc).take n, P y := by
  induction xs generalizing acc with
  | nil => exact h
  | cons x xs ih =>
    rw [List.foldl_cons]
    refine ih ?_ (fun z hz => hxs z (List.mem_cons_of_mem x hz)) ?_
    · rw [(settle_perm acc x).length_eq, List.length_append]
      omega
    · have hfirst : x ∈ (settle key acc x).take n ∨ (settle key acc x).take n = acc.take n :=
        take_settle acc x hn
      obtain hmem | hsame := hfirst
      · exact ⟨x, hmem, hxs x List.mem_cons_self⟩
      · rw [hsame]
        exact h

/-- A row that moves past all of its own and past the last row before them is among the rows
that stand before. -/
theorem mem_take_settle {pre : List α} {p : α} (hx : key x = some k)
    (hall : ∀ y ∈ acc, passes key k y = true) (hlast : p ∈ pre.getLast?)
    (hp : passes key k p = true) : x ∈ (settle key (pre ++ acc) x).take pre.length := by
  rw [settle_of_some hx, rdropWhile_append_of_all hall]
  have hlt := length_rdropWhile_lt hlast hp
  rw [List.take_append]
  apply List.mem_append_right
  obtain ⟨m, hm⟩ := Nat.exists_eq_add_of_lt hlt
  have hsub : pre.length - (pre.rdropWhile (passes key k)).length = m + 1 := by omega
  simp [hsub]

/-! ### Barriers and stretches -/

/-- Nothing moves past a row without a key. -/
theorem foldl_settle_barrier {pre : List α} {u : α} (hu : key u = none) (acc xs : List α) :
    xs.foldl (settle key) (pre ++ u :: acc) = pre ++ u :: xs.foldl (settle key) acc := by
  induction xs generalizing acc with
  | nil => rfl
  | cons x xs ih =>
    have hfirst : settle key (pre ++ u :: acc) x = pre ++ u :: settle key acc x := by
      rw [List.append_cons, settle_append]
      · simp
      · intro k hk hall p hp
        simp only [List.getLast?_append, List.getLast?_singleton, Option.some_or,
          Option.mem_def, Option.some.injEq] at hp
        simp [passes, ← hp, hu]
    rw [List.foldl_cons, List.foldl_cons, hfirst, ih]

/-- **Barriers.** A row without a key splits the pass. -/
theorem insertionPass_barrier {u : α} (hu : key u = none) (xs ys : List α) :
    insertionPass key (xs ++ u :: ys) = insertionPass key xs ++ u :: insertionPass key ys := by
  rw [insertionPass, List.foldl_append, List.foldl_cons, settle_of_none hu]
  exact foldl_settle_barrier hu [] ys

/-- A row without a key keeps its place. -/
theorem getElem?_insertionPass {u : α} {i : ℕ} (hi : xs[i]? = some u) (hu : key u = none) :
    (insertionPass key xs)[i]? = some u := by
  obtain ⟨hlt, rfl⟩ := List.getElem?_eq_some_iff.mp hi
  have hsplit : xs = xs.take i ++ xs[i] :: xs.drop (i + 1) := by
    rw [← List.drop_eq_getElem_cons hlt, List.take_append_drop]
  have hlen : (insertionPass key (xs.take i)).length = i := by
    rw [length_insertionPass, List.length_take]
    omega
  have hpass := insertionPass_barrier hu (xs.take i) (xs.drop (i + 1))
  rw [← hsplit] at hpass
  rw [hpass, List.getElem?_append_right (by omega), hlen]
  simp

/-- In ascending order of the keys. -/
def Ascending (key : α → Option κ) (xs : List α) : Prop :=
  xs.Pairwise fun a b => ∀ j ∈ key a, ∀ k ∈ key b, j ≤ k

theorem Ascending.settle (hkeys : ∀ y ∈ acc, (key y).isSome) (h : Ascending key acc) (x : α) :
    Ascending key (settle key acc x) := by
  cases hx : key x with
  | none =>
    rw [settle_of_none hx, Ascending, List.pairwise_append]
    refine ⟨h, List.pairwise_singleton _ x, ?_⟩
    intro a _ b hb j _ k hk
    rw [List.mem_singleton.mp hb, hx] at hk
    simp at hk
  | some k =>
    rw [settle_of_some hx]
    have hparts := List.rdropWhile_append_rtakeWhile (p := passes key k) (l := acc)
    unfold Ascending at h
    rw [← hparts, List.pairwise_append] at h
    obtain ⟨hleft, hright, hacross⟩ := h
    have hafter : ∀ y ∈ acc.rtakeWhile (passes key k), ∀ j ∈ key y, k < j := by
      intro y hy j hj
      obtain ⟨j', hj', hlt⟩ := passes_eq_true.mp (List.mem_rtakeWhile_imp hy)
      rw [Option.mem_def, hj'] at hj
      exact (Option.some.inj hj) ▸ hlt
    -- the last row that is left stops the new one, and the rows before it have smaller keys
    have hbefore : ∀ y ∈ acc.rdropWhile (passes key k), ∀ j ∈ key y, j ≤ k := by
      intro y hy j hj
      have hne : acc.rdropWhile (passes key k) ≠ [] := List.ne_nil_of_mem hy
      have hstop := List.rdropWhile_last_not (passes key k) acc hne
      have hmem : (acc.rdropWhile (passes key k)).getLast hne ∈ acc :=
        (List.rdropWhile_prefix _ acc).subset (List.getLast_mem hne)
      obtain ⟨m, hm⟩ := Option.isSome_iff_exists.mp (hkeys _ hmem)
      have hmk : m ≤ k := by
        rw [← not_lt]
        intro hlt
        exact hstop (passes_eq_true.mpr ⟨m, hm, hlt⟩)
      obtain ⟨l, hl⟩ : ∃ l, acc.rdropWhile (passes key k) =
          l ++ [(acc.rdropWhile (passes key k)).getLast hne] :=
        ⟨_, (List.dropLast_append_getLast hne).symm⟩
      rw [hl] at hy hleft
      obtain hy | hy := List.mem_append.mp hy
      · have hjm := (List.pairwise_append.mp hleft).2.2 y hy _ (List.mem_singleton_self _) j hj m hm
        exact hjm.trans hmk
      · rw [List.mem_singleton.mp hy, Option.mem_def, hm] at hj
        exact (Option.some.inj hj) ▸ hmk
    rw [Ascending, List.pairwise_append]
    refine ⟨hleft, List.pairwise_cons.mpr ⟨?_, hright⟩, ?_⟩
    · intro y hy i hi j hj
      rw [Option.mem_def, hx] at hi
      exact (Option.some.inj hi) ▸ (hafter y hy j hj).le
    · intro a ha b hb i hi j hj
      obtain rfl | hb := List.mem_cons.mp hb
      · rw [Option.mem_def, hx] at hj
        exact (Option.some.inj hj) ▸ hbefore a ha i hi
      · exact hacross a ha b hb i hi j hj

theorem Ascending.foldl_settle (hkeys : ∀ y ∈ acc ++ xs, (key y).isSome)
    (h : Ascending key acc) : Ascending key (xs.foldl (Lib.settle key) acc) := by
  induction xs generalizing acc with
  | nil => exact h
  | cons x xs ih =>
    rw [List.foldl_cons]
    apply ih
    · intro y hy
      apply hkeys y
      simp only [List.mem_append, mem_settle, List.mem_cons] at hy ⊢
      tauto
    · exact h.settle (fun y hy => hkeys y (List.mem_append_left _ hy)) x

/-- Rows that all have a key end in ascending order. -/
theorem ascending_insertionPass (hkeys : ∀ y ∈ xs, (key y).isSome) :
    Ascending key (insertionPass key xs) := by
  apply Ascending.foldl_settle
  · simpa using hkeys
  · exact List.Pairwise.nil

/-- The first row and the last one that a stretch may touch are barriers. -/
structure Stretch (key : α → Option κ) (before stretch after : List α) : Prop where
  keys : ∀ y ∈ stretch, (key y).isSome
  left : ∀ y ∈ before.getLast?, key y = none
  right : ∀ y ∈ after.head?, key y = none

/-- **A stretch is sorted in place.** -/
theorem insertionPass_stretch {before stretch after : List α}
    (h : Stretch key before stretch after) :
    insertionPass key (before ++ stretch ++ after) =
      insertionPass key before ++ insertionPass key stretch ++ insertionPass key after := by
  have hright : insertionPass key (before ++ stretch ++ after) =
      insertionPass key (before ++ stretch) ++ insertionPass key after := by
    cases after with
    | nil => simp [insertionPass]
    | cons u after =>
      have hu : key u = none := h.right u rfl
      have hrest := insertionPass_barrier hu [] after
      rw [List.nil_append] at hrest
      rw [insertionPass_barrier hu, hrest]
      rfl
  have hleft : insertionPass key (before ++ stretch) =
      insertionPass key before ++ insertionPass key stretch := by
    cases hlast : before.getLast? with
    | none =>
      rw [List.getLast?_eq_none_iff.mp hlast]
      rfl
    | some u =>
      obtain ⟨l, rfl⟩ := List.getLast?_eq_some_iff.mp hlast
      have hu : key u = none := h.left u hlast
      rw [List.append_assoc, List.singleton_append, insertionPass_barrier hu,
        insertionPass_barrier hu]
      simp [insertionPass]
  rw [hright, hleft]

end SoftEther.Lib
