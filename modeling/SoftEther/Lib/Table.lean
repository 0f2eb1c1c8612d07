import Mathlib.Algebra.BigOperators.Group.Finset.Piecewise
import Mathlib.Algebra.Order.BigOperators.Group.Finset

namespace SoftEther.Lib

open scoped BigOperators

/-!
# Tables of slots

A table is a function from slots to contents, changed one slot at a time with
`Function.update`.

* `weight_update` — what one update does to a sum over the table;
* `occupied` — how many slots satisfy a predicate, with its rule for an update;
* `firstFree` — the scan for the first slot that does not.
-/

variable {ι β : Type*}

section Sums

variable [Fintype ι] [DecidableEq ι]

/-- **What one update does to a sum over the table.** -/
theorem weight_update (w : β → ℕ) (t : ι → β) (i : ι) (b : β) :
    ∑ j, w (Function.update t i b j) + w (t i) = ∑ j, w (t j) + w b := by
  have hother : ∑ j ∈ Finset.univ.erase i, w (Function.update t i b j) =
      ∑ j ∈ Finset.univ.erase i, w (t j) := by
    apply Finset.sum_congr rfl
    intro j hj
    rw [Function.update_of_ne (Finset.ne_of_mem_erase hj)]
  have hold := Finset.add_sum_erase Finset.univ (fun j => w (t j)) (Finset.mem_univ i)
  have hnew := Finset.add_sum_erase Finset.univ (fun j => w (Function.update t i b j))
    (Finset.mem_univ i)
  rw [Function.update_self, hother] at hnew
  omega

/-- The number of slots that satisfy `p`. -/
def occupied (p : β → Bool) (t : ι → β) : ℕ := ∑ j, (p (t j)).toNat

variable {p : β → Bool} {t : ι → β} {i : ι} {b : β}

theorem occupied_update (p : β → Bool) (t : ι → β) (i : ι) (b : β) :
    occupied p (Function.update t i b) + (p (t i)).toNat = occupied p t + (p b).toNat :=
  weight_update (fun x => (p x).toNat) t i b

/-- Emptying an occupied slot. -/
theorem occupied_clear (hi : p (t i) = true) (hb : p b = false) :
    occupied p (Function.update t i b) + 1 = occupied p t := by
  have h := occupied_update p t i b
  rw [hi, hb] at h
  exact h

/-- Occupying an empty slot. -/
theorem occupied_fill (hi : p (t i) = false) (hb : p b = true) :
    occupied p (Function.update t i b) = occupied p t + 1 := by
  have h := occupied_update p t i b
  rw [hi, hb] at h
  exact h

/-- An update that leaves the slot as free, or as occupied, as it was. -/
theorem occupied_same (h : p (t i) = p b) : occupied p (Function.update t i b) = occupied p t := by
  have hupd := occupied_update p t i b
  rw [h] at hupd
  omega

omit [DecidableEq ι] in
theorem occupied_eq_zero (h : ∀ j, p (t j) = false) : occupied p t = 0 := by
  apply Finset.sum_eq_zero
  intro j _
  rw [h j]
  rfl

end Sums

/-- The first slot that does not satisfy `p`. -/
def firstFree {n : ℕ} (p : β → Bool) (t : Fin n → β) : Option (Fin n) :=
  (List.finRange n).find? fun i => !p (t i)

theorem firstFree_free {n : ℕ} {p : β → Bool} {t : Fin n → β} {i : Fin n}
    (h : firstFree p t = some i) : p (t i) = false := by
  have hfree := List.find?_some h
  simpa using hfree

end SoftEther.Lib
