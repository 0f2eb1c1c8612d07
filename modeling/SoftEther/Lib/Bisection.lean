import Mathlib.Tactic.Common

namespace SoftEther.Lib

/-!
# Bisection

The search for the last place that a decreasing test accepts. The bounds close in on it: what is
at `lo` is accepted, and what is above `hi` is not.

* `lastFitting` — the search;
* `lastFitting_spec` — what it returns is accepted, and nothing above it is.
-/

/-- The last place from `lo` to `hi` that `fits`. -/
def lastFitting (fits : ℕ → Bool) (lo hi : ℕ) : ℕ :=
  if lo < hi then
    let mid := (lo + hi + 1) / 2
    if fits mid then lastFitting fits mid hi else lastFitting fits lo (mid - 1)
  else lo
termination_by hi - lo
decreasing_by all_goals omega

/-- The search stays within its bounds. -/
theorem lastFitting_le (fits : ℕ → Bool) {lo hi : ℕ} (hle : lo ≤ hi) :
    lastFitting fits lo hi ≤ hi := by
  fun_induction lastFitting fits lo hi with
  | case1 lo hi hlt mid hmid ih => exact ih (by omega)
  | case2 lo hi hlt mid hmid ih => exact Nat.le_trans (ih (by omega)) (by omega)
  | case3 lo hi hnot => exact hle

/-- **The search finds the last place that fits**, when the places that fit come first and `lo` is
    one of them. -/
theorem lastFitting_spec {fits : ℕ → Bool}
    (hfirst : ∀ m n, m ≤ n → fits n = true → fits m = true) {lo hi : ℕ} (hle : lo ≤ hi)
    (hlo : fits lo = true) :
    fits (lastFitting fits lo hi) = true ∧
      ∀ n, lastFitting fits lo hi < n → n ≤ hi → fits n = false := by
  fun_induction lastFitting fits lo hi with
  | case1 lo hi hlt mid hmid ih =>
    -- the lower bound moves up to an accepted place
    exact ih (by omega) hmid
  | case2 lo hi hlt mid hmid ih =>
    -- the upper bound moves down; what is above it is refused like `mid`
    obtain ⟨hfits, hlast⟩ := ih (by omega) hlo
    refine ⟨hfits, ?_⟩
    intro n hn hnhi
    by_cases hsmall : n ≤ mid - 1
    · exact hlast n hn hsmall
    · have hmidn : mid ≤ n := by omega
      cases hn' : fits n with
      | false => rfl
      | true => exact absurd (hfirst mid n hmidn hn') hmid
  | case3 lo hi hnot =>
    refine ⟨hlo, ?_⟩
    intro n hn hnhi
    omega

end SoftEther.Lib
