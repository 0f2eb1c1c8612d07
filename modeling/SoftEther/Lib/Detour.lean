import Mathlib.Data.List.Basic

namespace SoftEther.Lib

/-!
# Paths with detours

A path visits points one after the other; some of its steps are jumps.  A detour inserts
points into the path, each of which has to be available where it is inserted.  What is
available depends on the part of the path that has been visited.

* `jumps` — the number of jumps of a path;
* `Detour` — a path and the same path with points inserted;
* `SafeAt` — no jump between the points available after an initial part of the path, and no
  jump from one of them to the next point unless the path itself jumps there;
* `detour_jumps_le_iff` — no detour adds a jump exactly when every initial part is safe.
-/

variable {α : Type*}

section Jumps

variable (jump : α → α → Prop) [DecidableRel jump]

/-- The jumps of the path that starts at `u` and visits the points of a list. -/
def jumps : α → List α → ℕ
  | _, [] => 0
  | u, x :: xs => (if jump u x then 1 else 0) + jumps x xs

theorem jumps_append (u : α) (xs ys : List α) :
    jumps jump u (xs ++ ys) = jumps jump u xs + jumps jump (xs.getLastD u) ys := by
  induction xs generalizing u with
  | nil => simp only [List.nil_append, jumps, List.getLastD_nil, Nat.zero_add]
  | cons x xs ih =>
    simp only [List.cons_append, jumps, ih, List.getLastD_cons, Nat.add_assoc]

/-- Where a path starts decides about its first step only. -/
theorem jumps_le_add_one (u v : α) (xs : List α) : jumps jump u xs ≤ 1 + jumps jump v xs := by
  cases xs with
  | nil => exact Nat.zero_le _
  | cons x xs =>
    simp only [jumps]
    split <;> omega

end Jumps

/-! ### Detours -/

/-- The second list is the first one with points inserted; `pre` has been visited before, and
    `avail pre` says which points are available after it. -/
inductive Detour (avail : List α → α → Prop) : List α → List α → List α → Prop
  | nil (pre : List α) : Detour avail pre [] []
  | keep {pre xs ys : List α} (x : α) : Detour avail (pre ++ [x]) xs ys →
      Detour avail pre (x :: xs) (x :: ys)
  | visit {pre xs ys : List α} {s : α} : avail pre s → Detour avail pre xs ys →
      Detour avail pre xs (s :: ys)

namespace Detour

variable {avail : List α → α → Prop}

theorem refl (pre xs : List α) : Detour avail pre xs xs := by
  induction xs generalizing pre with
  | nil => exact .nil pre
  | cons x xs ih => exact .keep x (ih _)

/-- A detour behind an initial part of the path. -/
theorem after {done pre xs ys : List α} (h : Detour avail (done ++ pre) xs ys) :
    Detour avail done (pre ++ xs) (pre ++ ys) := by
  induction pre generalizing done with
  | nil =>
    rw [List.append_nil] at h
    exact h
  | cons x pre ih =>
    rw [List.append_cons] at h
    exact .keep x (ih h)

variable {β : Type*} {availβ : List β → β → Prop}

/-- A detour seen through a function. -/
theorem map {f : α → β} (havail : ∀ pre s, avail pre s → availβ (pre.map f) (f s))
    {pre xs ys : List α} (h : Detour avail pre xs ys) :
    Detour availβ (pre.map f) (xs.map f) (ys.map f) := by
  induction h with
  | nil pre => exact .nil _
  | @keep pre xs ys x _ ih =>
    rw [List.map_append, List.map_singleton] at ih
    exact .keep (f x) ih
  | visit hs _ ih => exact .visit (havail _ _ hs) ih

/-- A detour of the image of a path is the image of a detour, when every available point is
    the image of one. -/
theorem lift {f : α → β} (havail : ∀ pre t, availβ (pre.map f) t → ∃ s, f s = t ∧ avail pre s)
    {pre xs : List α} {ts : List β} (h : Detour availβ (pre.map f) (xs.map f) ts) :
    ∃ ys, ys.map f = ts ∧ Detour avail pre xs ys := by
  generalize hpre : pre.map f = preβ at h
  generalize hxs : xs.map f = xsβ at h
  induction h generalizing pre xs with
  | nil _ =>
    rw [List.map_eq_nil_iff] at hxs
    subst hxs
    exact ⟨[], rfl, .nil pre⟩
  | keep x _ ih =>
    cases xs with
    | nil => cases hxs
    | cons a xs =>
      rw [List.map_cons, List.cons_eq_cons] at hxs
      obtain ⟨rfl, hxs⟩ := hxs
      have hnext : (pre ++ [a]).map f = pre.map f ++ [f a] := List.map_append
      rw [hpre] at hnext
      obtain ⟨ys, rfl, hys⟩ := ih hnext hxs
      exact ⟨a :: ys, rfl, .keep a hys⟩
  | visit hs _ ih =>
    obtain ⟨ys, rfl, hys⟩ := ih hpre hxs
    obtain ⟨s', rfl, hs'⟩ := havail pre _ (by rw [hpre]; exact hs)
    exact ⟨s' :: ys, rfl, .visit hs' hys⟩

end Detour

/-! ### Detours without a jump -/

/-- After `pre`, with `post` still to come, a detour cannot add a jump. -/
structure SafeAt (jump : α → α → Prop) (avail : List α → α → Prop) (u : α) (pre post : List α) :
    Prop where
  between : ∀ s t, avail pre s → avail pre t → ¬ jump s t
  onward : ∀ s b, avail pre s → post.head? = some b → jump s b → jump (pre.getLastD u) b

variable {jump : α → α → Prop} [DecidableRel jump] {avail : List α → α → Prop}

/-- The points of the path are available as they are reached. -/
def Reachable (avail : List α → α → Prop) (done xs : List α) : Prop :=
  ∀ pre x post, xs = pre ++ x :: post → avail (done ++ pre ++ [x]) x

/-- **A safe detour.** From the last point visited, or from an available one, a detour makes
    no more jumps than the path. -/
theorem Detour.jumps_le {u : α} {done xs ys : List α} (h : Detour avail done xs ys)
    (hreach : Reachable avail done xs)
    (hsafe : ∀ pre post, xs = pre ++ post → SafeAt jump avail u (done ++ pre) post) {c : α}
    (hlast : ∀ s, avail done s → avail done (done.getLastD u))
    (hc : c = done.getLastD u ∨ avail done c) :
    jumps jump c ys ≤ jumps jump (done.getLastD u) xs := by
  induction h generalizing c with
  | nil pre => exact Nat.zero_le _
  | @keep pre xs ys x _ ih =>
    have hx : avail (pre ++ [x]) x := by
      have h := hreach [] x xs rfl
      rwa [List.append_nil] at h
    have hrest := @ih
      (fun pre' y post hxs => by
        have h := hreach (x :: pre') y post (by rw [hxs]; rfl)
        rwa [List.append_cons pre x pre'] at h)
      (fun pre' post hxs => by
        have h := hsafe (x :: pre') post (by rw [hxs]; rfl)
        rwa [List.append_cons] at h)
      x (fun _ _ => by rw [List.getLastD_concat]; exact hx)
      (.inl (by rw [List.getLastD_concat]))
    rw [List.getLastD_concat] at hrest
    -- a jump to `x` from an available point is one from the last point
    have hstep : jump c x → jump (pre.getLastD u) x := by
      intro hjump
      rcases hc with rfl | hc
      · exact hjump
      · have h := (hsafe [] (x :: xs) rfl).onward c x
        rw [List.append_nil] at h
        exact h hc rfl hjump
    simp only [jumps]
    by_cases hjump : jump c x
    · rw [if_pos hjump, if_pos (hstep hjump)]
      omega
    · rw [if_neg hjump]
      split <;> omega
  | @visit pre xs ys s hs _ ih =>
    have hbetween := (hsafe [] xs rfl).between
    rw [List.append_nil] at hbetween
    have hquiet : ¬ jump c s := by
      rcases hc with rfl | hc
      · exact hbetween _ s (hlast s hs) hs
      · exact hbetween c s hc hs
    simp only [jumps, if_neg hquiet, Nat.zero_add]
    exact ih hreach hsafe hlast (.inr hs)

/-- **When detours add no jump.** -/
theorem detour_jumps_le_iff (hnone : ∀ s, ¬ avail [] s) (u : α) {xs : List α}
    (hreach : Reachable avail [] xs) :
    (∀ ys, Detour avail [] xs ys → jumps jump u ys ≤ jumps jump u xs) ↔
      ∀ pre post, xs = pre ++ post → SafeAt jump avail u pre post := by
  constructor
  · rintro h pre post rfl
    constructor
    · -- going back and forth between two points jumps as often as one likes
      intro s t hs ht hjump
      have hdetour : Detour avail [] (pre ++ post) (pre ++ s :: t :: s :: t :: post) :=
        Detour.after (.visit hs (.visit ht (.visit hs (.visit ht (.refl pre post)))))
      have hle := h _ hdetour
      rw [jumps_append, jumps_append] at hle
      simp only [jumps, if_pos hjump] at hle
      have hpost := jumps_le_add_one jump (pre.getLastD u) t post
      omega
    · intro s b hs hb hjump
      obtain ⟨rest, rfl⟩ : ∃ rest, post = b :: rest := by
        cases post with
        | nil => cases hb
        | cons x rest =>
          obtain rfl : x = b := by simpa using hb
          exact ⟨rest, rfl⟩
      have hdetour : Detour avail [] (pre ++ b :: rest) (pre ++ s :: b :: rest) :=
        Detour.after (.visit hs (.refl pre _))
      have hle := h _ hdetour
      rw [jumps_append, jumps_append] at hle
      by_contra hno
      simp only [jumps, if_pos hjump, if_neg hno] at hle
      omega
  · intro hsafe ys hys
    exact hys.jumps_le hreach hsafe (fun s hs => absurd hs (hnone s)) (.inl rfl)

end SoftEther.Lib
