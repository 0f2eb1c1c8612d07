import Mathlib.Data.List.Infix

namespace SoftEther.Lib

/-!
# Paths with dot segments

A path is a list of segments: a name enters a directory, `..` leaves the one it is in, and at the
root stays there.

* `walk` — the directories that one is in behind a path;
* `NeverClimbs`, `ClimbsBack` — the path does not leave the directory where it starts, and it comes
  back to the root: both are counts of its initial and its final parts;
* `walk_append_of_neverClimbs` — a path that never climbs does not see what is above it;
* `walk_eq_cons_iff`, `walk_eq_nil_iff` — the outermost directory, by where the path enters it last;
* `prefix_walk_iff` — the two outermost ones;
* `StaysBelow`, `prefix_walk_below_iff` — a path that starts in two directories ends below them.
-/

variable {α : Type*}

/-! ### Paths -/

/-- A segment of a path: the folder itself, the one above, or a name. -/
inductive Segment (α : Type*) where
  | here
  | up
  | name (n : α)
  deriving DecidableEq

namespace Segment

/-- A step up. -/
def isUp : Segment α → Bool
  | .up => true
  | _ => false

/-- A step down. -/
def isName : Segment α → Bool
  | .name _ => true
  | _ => false

end Segment

open Segment

/-- The directories behind a path, from the outermost one on. -/
def walk (stack : List α) : List (Segment α) → List α
  | [] => stack
  | .here :: path => walk stack path
  | .up :: path => walk stack.dropLast path
  | .name n :: path => walk (stack ++ [n]) path

/-- The steps up of a path. -/
def ups (path : List (Segment α)) : ℕ := path.countP isUp

/-- The steps down of a path. -/
def names (path : List (Segment α)) : ℕ := path.countP isName

/-- **The path does not leave the directory where it starts.** -/
def NeverClimbs (path : List (Segment α)) : Prop := ∀ a, a <+: path → ups a ≤ names a

/-- **The path comes back to the root**: no final part of it stays in a directory. -/
def ClimbsBack (path : List (Segment α)) : Prop := ∀ a, a <:+ path → names a ≤ ups a

section Counts

variable (n : α) (path : List (Segment α))

@[simp] theorem ups_nil : ups ([] : List (Segment α)) = 0 := rfl

@[simp] theorem ups_here : ups (.here :: path) = ups path := by simp [ups, isUp]

@[simp] theorem ups_up : ups (.up :: path) = ups path + 1 := List.countP_cons_of_pos rfl

@[simp] theorem ups_name : ups (.name n :: path) = ups path := by simp [ups, isUp]

@[simp] theorem names_nil : names ([] : List (Segment α)) = 0 := rfl

@[simp] theorem names_here : names (.here :: path) = names path := by simp [names, isName]

@[simp] theorem names_up : names (.up :: path) = names path := by simp [names, isName]

@[simp] theorem names_name : names (.name n :: path) = names path + 1 :=
  List.countP_cons_of_pos rfl

end Counts

theorem ups_append (a b : List (Segment α)) : ups (a ++ b) = ups a + ups b := List.countP_append

theorem names_append (a b : List (Segment α)) : names (a ++ b) = names a + names b :=
  List.countP_append

theorem walk_append (stack : List α) (a b : List (Segment α)) :
    walk stack (a ++ b) = walk (walk stack a) b := by
  induction a generalizing stack with
  | nil => rfl
  | cons s a ih =>
    cases s with
    | here => exact ih stack
    | up => exact ih stack.dropLast
    | name n => exact ih (stack ++ [n])

theorem NeverClimbs.of_append {a b : List (Segment α)} (h : NeverClimbs (a ++ b)) :
    NeverClimbs a := fun p hp => h p (hp.trans (List.prefix_append a b))

/-! ### What is above a path -/

/-- A path that leaves no more than `depth` directories. -/
def ClimbsAtMost (depth : ℕ) (path : List (Segment α)) : Prop :=
  ∀ a, a <+: path → ups a ≤ names a + depth

variable {path : List (Segment α)} {x : α}

theorem ClimbsAtMost.tail {depth depth' : ℕ} {s : Segment α} (h : ClimbsAtMost depth (s :: path))
    (hs : names [s] + depth ≤ depth' + ups [s]) : ClimbsAtMost depth' path := by
  intro a ha
  have hcons := h (s :: a) (List.cons_prefix_cons.mpr ⟨rfl, ha⟩)
  have hups : ups (s :: a) = ups [s] + ups a := ups_append [s] a
  have hnames : names (s :: a) = names [s] + names a := names_append [s] a
  omega

theorem walk_append_of_climbsAtMost (base stack : List α) (h : ClimbsAtMost stack.length path) :
    walk (base ++ stack) path = base ++ walk stack path := by
  induction path generalizing stack with
  | nil => rfl
  | cons s path ih =>
    cases s with
    | here => exact ih stack (h.tail (by simp))
    | up =>
      have hpos : 1 ≤ stack.length := by
        have := h [.up] (List.cons_prefix_cons.mpr ⟨rfl, List.nil_prefix⟩)
        simpa using this
      have hne : stack ≠ [] := List.ne_nil_of_length_pos hpos
      have htail : ClimbsAtMost stack.dropLast.length path := by
        apply h.tail
        simp only [names_up, names_nil, ups_up, ups_nil, List.length_dropLast]
        omega
      rw [walk, walk, List.dropLast_append_of_ne_nil hne]
      exact ih stack.dropLast htail
    | name n =>
      have htail : ClimbsAtMost (stack ++ [n]).length path := by
        apply h.tail
        simp only [names_name, names_nil, ups_name, ups_nil, List.length_append,
          List.length_singleton]
        omega
      rw [walk, walk, List.append_assoc]
      exact ih (stack ++ [n]) htail

/-- **A path that never climbs does not see what is above it.** -/
theorem walk_append_of_neverClimbs (base : List α) (h : NeverClimbs path) :
    walk base path = base ++ walk [] path := by
  calc walk base path = walk (base ++ []) path := by rw [List.append_nil]
    _ = base ++ walk [] path := walk_append_of_climbsAtMost base [] h

/-- Every name enters a directory, and every `..` leaves one at most. -/
theorem names_le (stack : List α) (path : List (Segment α)) :
    stack.length + names path ≤ (walk stack path).length + ups path := by
  induction path generalizing stack with
  | nil => simp [walk]
  | cons s path ih =>
    cases s with
    | here => simpa [walk] using ih stack
    | up =>
      have := ih stack.dropLast
      rw [List.length_dropLast] at this
      rw [walk, names_up, ups_up]
      omega
    | name n =>
      have := ih (stack ++ [n])
      rw [List.length_append, List.length_singleton] at this
      rw [walk, names_name, ups_name]
      omega

/-- A path that never climbs leaves as many directories as it has `..`. -/
theorem NeverClimbs.length_walk (h : NeverClimbs path) :
    (walk [] path).length + ups path = names path := by
  induction path using List.reverseRecOn with
  | nil => rfl
  | append_singleton path s ih =>
    have hwhole := h _ List.prefix_rfl
    have hpath := ih h.of_append
    rw [ups_append, names_append] at hwhole
    rw [walk_append, ups_append, names_append]
    cases s with
    | here => simpa [walk] using hpath
    | up =>
      simp only [ups_up, ups_nil, names_up, names_nil] at hwhole
      simp only [walk, ups_up, ups_nil, names_up, names_nil, List.length_dropLast]
      omega
    | name n =>
      simp only [walk, ups_name, ups_nil, names_name, names_nil, List.length_append,
        List.length_singleton]
      omega

/-! ### The outermost directories -/

/-- **The outermost directory** is the one that the path enters last from the root. -/
theorem walk_eq_cons_iff {rest : List α} :
    walk [] path = x :: rest ↔ ∃ a c, path = a ++ .name x :: c ∧ walk [] a = [] ∧
      NeverClimbs c ∧ walk [] c = rest := by
  constructor
  · intro h
    induction path using List.reverseRecOn generalizing rest with
    | nil => exact absurd h (by simp [walk])
    | append_singleton path s ih =>
      rw [walk_append] at h
      -- what the last segment adds to the part that the path has walked below `x`
      have hgrow : ∀ {c : List (Segment α)}, NeverClimbs c →
          ups (c ++ [s]) ≤ names (c ++ [s]) → NeverClimbs (c ++ [s]) := by
        intro c hc hs a ha
        rcases List.prefix_concat_iff.mp ha with rfl | ha
        · exact hs
        · exact hc a ha
      cases s with
      | here =>
        obtain ⟨a, c, rfl, ha, hc, hrest⟩ := ih h
        refine ⟨a, c ++ [.here], by simp, ha, hgrow hc ?_, by rw [walk_append, hrest]; rfl⟩
        have := hc c List.prefix_rfl
        simpa [ups_append, names_append] using this
      | up =>
        have hconcat : walk [] path = x :: (rest ++ [(walk [] path).getLast?.getD x]) := by
          have hne : walk [] path ≠ [] := by
            intro hnil
            rw [hnil] at h
            exact absurd h (by simp [walk])
          have hlast := List.dropLast_concat_getLast hne
          rw [walk, walk] at h
          rw [List.getLast?_eq_some_getLast hne, Option.getD_some, ← List.cons_append, ← h]
          exact hlast.symm
        obtain ⟨a, c, hpath, ha, hc, hrest⟩ := ih hconcat
        refine ⟨a, c ++ [.up], by simp [hpath], ha, hgrow hc ?_, ?_⟩
        · have hlength := hc.length_walk
          rw [hrest, List.length_append, List.length_singleton] at hlength
          rw [ups_append, names_append, ups_up, ups_nil, names_up, names_nil]
          omega
        · rw [walk_append, hrest, walk, walk, List.dropLast_concat]
      | name n =>
        rw [walk, walk] at h
        cases hw : walk [] path with
        | nil =>
          rw [hw, List.nil_append] at h
          obtain ⟨rfl, rfl⟩ := List.cons.inj h
          exact ⟨path, [], rfl, hw, fun a ha => by simp [List.prefix_nil.mp ha], rfl⟩
        | cons y ys =>
          rw [hw, List.cons_append] at h
          obtain ⟨rfl, rfl⟩ := List.cons.inj h
          obtain ⟨a, c, rfl, ha, hc, hrest⟩ := ih hw
          refine ⟨a, c ++ [.name n], by simp, ha, hgrow hc ?_, ?_⟩
          · have := hc c List.prefix_rfl
            rw [ups_append, names_append, ups_name, ups_nil, names_name, names_nil]
            omega
          · rw [walk_append, hrest]
            rfl
  · rintro ⟨a, c, rfl, ha, hc, rfl⟩
    rw [walk_append, ha, walk, List.nil_append, walk_append_of_neverClimbs [x] hc]
    rfl

theorem walk_eq_nil_iff : walk [] path = [] ↔ ClimbsBack path := by
  constructor
  · rintro h a ⟨front, rfl⟩
    rw [walk_append] at h
    have := names_le (walk [] front) a
    rw [h, List.length_nil] at this
    omega
  · intro h
    cases hw : walk [] path with
    | nil => rfl
    | cons x rest =>
      obtain ⟨a, c, rfl, -, hc, -⟩ := walk_eq_cons_iff.mp hw
      have hback := h (.name x :: c) (List.suffix_append a _)
      have hdown := hc c List.prefix_rfl
      rw [names_name, ups_name] at hback
      omega

/-- **The two outermost directories**: the path comes back to the root and enters `x`, comes back
to `x` and enters `y`, and does not climb any more. -/
theorem prefix_walk_iff {y : α} :
    [x, y] <+: walk [] path ↔ ∃ a b c, path = a ++ .name x :: (b ++ .name y :: c) ∧
      ClimbsBack a ∧ (NeverClimbs b ∧ ups b = names b) ∧ NeverClimbs c := by
  constructor
  · rintro ⟨rest, hrest⟩
    obtain ⟨a, d, rfl, ha, hd, hwalk⟩ := walk_eq_cons_iff.mp hrest.symm
    obtain ⟨b, c, rfl, hb, hc, -⟩ := walk_eq_cons_iff.mp hwalk
    have hlength := hd.of_append.length_walk
    rw [hb, List.length_nil, Nat.zero_add] at hlength
    exact ⟨a, b, c, rfl, walk_eq_nil_iff.mp ha, ⟨hd.of_append, hlength⟩, hc⟩
  · rintro ⟨a, b, c, rfl, ha, ⟨hb, hlevel⟩, hc⟩
    have hnil : walk [] b = [] := by
      have := hb.length_walk
      exact List.eq_nil_of_length_eq_zero (by omega)
    rw [walk_append, walk_eq_nil_iff.mpr ha, walk, List.nil_append, walk_append,
      walk_append_of_neverClimbs [x] hb, hnil, List.append_nil, walk,
      walk_append_of_neverClimbs _ hc]
    exact List.prefix_append _ _

/-- **A path that starts in `y` below `x` ends there**: it never climbs; or it climbs to `x`, no
further, and enters `y` again; or it comes back to the root, enters both and stays. -/
def StaysBelow (x y : α) (path : List (Segment α)) : Prop :=
  NeverClimbs path ∨
    (∃ b c, path = b ++ .name y :: c ∧
      (ClimbsAtMost 1 b ∧ ups b = names b + 1) ∧ NeverClimbs c) ∨
    ∃ a b c, path = a ++ .name x :: (b ++ .name y :: c) ∧
      ClimbsBack (.name x :: .name y :: a) ∧ (NeverClimbs b ∧ ups b = names b) ∧ NeverClimbs c

theorem prefix_walk_below_iff {y : α} :
    [x, y] <+: walk [] (.name x :: .name y :: path) ↔ StaysBelow x y path := by
  rw [prefix_walk_iff]
  constructor
  · rintro ⟨a, b, c, h, ha, ⟨hb, hlevel⟩, hc⟩
    -- by where the path enters `x` for the last time
    rcases a with _ | ⟨s, _ | ⟨t, a⟩⟩
    · cases b with
      | nil =>
        obtain rfl : path = c := by simpa using h
        exact Or.inl hc
      | cons s b =>
        obtain ⟨rfl, rfl⟩ : .name y = s ∧ path = b ++ .name y :: c := by simpa using h
        have hzero : ClimbsAtMost 0 (.name y :: b) := hb
        exact Or.inr (Or.inl ⟨b, c, rfl, ⟨hzero.tail (by simp), by simpa using hlevel⟩, hc⟩)
    · obtain ⟨rfl, -⟩ := List.cons.inj h
      exact absurd (ha _ List.suffix_rfl) (by simp)
    · obtain ⟨rfl, rfl, rfl⟩ :
          .name x = s ∧ .name y = t ∧ path = a ++ .name x :: (b ++ .name y :: c) := by
        simpa using h
      exact Or.inr (Or.inr ⟨a, b, c, rfl, ha, ⟨hb, hlevel⟩, hc⟩)
  · rintro (h | ⟨b, c, rfl, ⟨hb, hlevel⟩, hc⟩ | ⟨a, b, c, rfl, ha, hb, hc⟩)
    · have hnil : NeverClimbs ([] : List (Segment α)) := fun a ha => by
        rw [List.prefix_nil.mp ha]
        exact le_rfl
      refine ⟨[], [], path, rfl, fun a ha => ?_, ⟨hnil, rfl⟩, h⟩
      rw [List.suffix_nil.mp ha]
      exact le_rfl
    · refine ⟨[], .name y :: b, c, rfl, fun a ha => ?_, ⟨fun a ha => ?_, by simpa using hlevel⟩, hc⟩
      · rw [List.suffix_nil.mp ha]
        exact le_rfl
      · cases a with
        | nil => exact le_rfl
        | cons s a =>
          obtain ⟨rfl, htail⟩ := List.cons_prefix_cons.mp ha
          simpa using hb a htail
    · exact ⟨.name x :: .name y :: a, b, c, rfl, ha, hb, hc⟩

end SoftEther.Lib
