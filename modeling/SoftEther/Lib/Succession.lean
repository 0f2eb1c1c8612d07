import Mathlib.Data.List.Basic
import Mathlib.Data.List.Induction

namespace SoftEther.Lib

/-!
# Successors in a list

A list is read from the left; an item may take over from those before it, and keeps what it took
until another item does. Whether an item takes over depends on all the items before it.

* `Decides takesOver xs x` — the item `x` of `xs` took over and nothing behind it did;
* `decides_concat_of_takes`, `decides_concat_of_not` — one more item;
* `exists_decides_iff` — some item decides when some item took over;
* `Decides.holds` — what holds of an item that takes over and of all that do behind it.
-/

variable {α : Type*}

/-- `x` takes over from the items before it, and no item behind it does from those before. -/
def Decides (takesOver : List α → α → Prop) (xs : List α) (x : α) : Prop :=
  ∃ before after, xs = before ++ x :: after ∧ takesOver before x ∧
    ∀ mid y rest, after = mid ++ y :: rest → ¬ takesOver (before ++ x :: mid) y

variable {takesOver : List α → α → Prop} {xs : List α} {x y : α}

theorem Decides.mem (h : Decides takesOver xs x) : x ∈ xs := by
  obtain ⟨before, after, rfl, -, -⟩ := h
  simp

/-- A last item that takes over decides. -/
theorem decides_concat_of_takes (h : takesOver xs y) :
    Decides takesOver (xs ++ [y]) x ↔ x = y := by
  constructor
  · rintro ⟨before, after, heq, -, hlast⟩
    rcases List.eq_nil_or_concat' after with rfl | ⟨mid, z, rfl⟩
    · simpa using (List.append_inj' heq rfl).2.symm
    · have hsplit : xs ++ [y] = (before ++ x :: mid) ++ [z] := by simpa using heq
      obtain ⟨hxs, hy⟩ := List.append_inj' hsplit rfl
      obtain rfl : y = z := by simpa using hy
      rw [hxs] at h
      exact absurd h (hlast mid y [] rfl)
  · rintro rfl
    refine ⟨xs, [], rfl, h, ?_⟩
    intro mid y rest heq
    simp at heq

/-- A last item that does not take over changes nothing. -/
theorem decides_concat_of_not (h : ¬ takesOver xs y) :
    Decides takesOver (xs ++ [y]) x ↔ Decides takesOver xs x := by
  constructor
  · rintro ⟨before, after, heq, htakes, hlast⟩
    rcases List.eq_nil_or_concat' after with rfl | ⟨mid, z, rfl⟩
    · obtain ⟨hxs, hy⟩ := List.append_inj' heq rfl
      obtain rfl : y = x := by simpa using hy
      rw [hxs] at h
      exact absurd htakes h
    · have hsplit : xs ++ [y] = (before ++ x :: mid) ++ [z] := by simpa using heq
      obtain ⟨hxs, -⟩ := List.append_inj' hsplit rfl
      refine ⟨before, mid, hxs, htakes, ?_⟩
      intro mid' y' rest hmid
      exact hlast mid' y' (rest ++ [z]) (by simp [hmid])
  · rintro ⟨before, after, rfl, htakes, hlast⟩
    refine ⟨before, after ++ [y], by simp, htakes, ?_⟩
    intro mid z rest heq
    rcases List.eq_nil_or_concat' rest with rfl | ⟨rest', w, rfl⟩
    · obtain ⟨hmid, hz⟩ := List.append_inj' heq rfl
      obtain rfl : y = z := by simpa using hz
      rwa [← hmid]
    · have hsplit : after ++ [y] = (mid ++ z :: rest') ++ [w] := by simpa using heq
      exact hlast mid z rest' (List.append_inj' hsplit rfl).1

/-- **Some item decides when some item took over.** -/
theorem exists_decides_iff :
    (∃ x, Decides takesOver xs x) ↔
      ∃ before x after, xs = before ++ x :: after ∧ takesOver before x := by
  constructor
  · rintro ⟨x, before, after, heq, htakes, -⟩
    exact ⟨before, x, after, heq, htakes⟩
  · rintro ⟨before, x, after, rfl, htakes⟩
    -- from the right: the last item takes over, or what is before it decides
    induction after using List.reverseRecOn with
    | nil => exact ⟨x, (decides_concat_of_takes htakes).mpr rfl⟩
    | append_singleton after y ih =>
      rw [← List.cons_append, ← List.append_assoc]
      by_cases hy : takesOver (before ++ x :: after) y
      · exact ⟨y, (decides_concat_of_takes hy).mpr rfl⟩
      · obtain ⟨z, hz⟩ := ih
        exact ⟨z, (decides_concat_of_not hy).mpr hz⟩

/-- **What holds of an item that takes over, and of every item that does behind it**, holds of the
    one that decides. -/
theorem Decides.holds {P : α → Prop} {before after : List α} {y : α}
    (h : Decides takesOver (before ++ y :: after) x) (hy : takesOver before y) (hP : P y)
    (hafter : ∀ mid z rest, after = mid ++ z :: rest → takesOver (before ++ y :: mid) z → P z) :
    P x := by
  induction after using List.reverseRecOn with
  | nil =>
    rw [(decides_concat_of_takes hy).mp h]
    exact hP
  | append_singleton after z ih =>
    rw [← List.cons_append, ← List.append_assoc] at h
    by_cases hz : takesOver (before ++ y :: after) z
    · rw [(decides_concat_of_takes hz).mp h]
      exact hafter after z [] rfl hz
    · refine ih ((decides_concat_of_not hz).mp h) fun mid w rest heq => ?_
      exact hafter mid w (rest ++ [z]) (by simp [heq])

end SoftEther.Lib
