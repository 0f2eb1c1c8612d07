import Mathlib.Data.Nat.Count

namespace SoftEther.Lib

/-!
# Loops with a deadline

A loop counts its time by its turns.  A turn that waited is a tick; one that did not leaves the
time alone; one may end the loop.

* `Turn`, `ticks`, `skips` — the turns of a loop, and how many of the first are ticks and skips;
* `Over` — the loop is at its end: it was stopped, or it has had its ticks;
* `bounded_iff` — the loops of a family end within a bound exactly when their skips have one.
-/

/-- A turn of a loop. -/
inductive Turn
  | tick
  | skip
  | stop
  deriving DecidableEq, Repr

variable (turns : ℕ → Turn)

/-- The ticks among the first `n` turns. -/
def ticks (n : ℕ) : ℕ := Nat.count (fun i => turns i = .tick) n

/-- The skips among the first `n` turns. -/
def skips (n : ℕ) : ℕ := Nat.count (fun i => turns i = .skip) n

/-- After `n` turns a loop that has `need` ticks is at its end. -/
def Over (need n : ℕ) : Prop := (∃ i < n, turns i = .stop) ∨ need ≤ ticks turns n

variable {turns}

theorem Over.mono {need m n : ℕ} (h : Over turns need m) (hmn : m ≤ n) : Over turns need n := by
  rcases h with ⟨i, hi, hstop⟩ | hticks
  · exact .inl ⟨i, by omega, hstop⟩
  · exact .inr (Nat.le_trans hticks (Nat.count_monotone _ hmn))

theorem skips_le (n : ℕ) : skips turns n ≤ n := Nat.count_le _

/-- Turns that do not stop the loop are ticks and skips. -/
theorem ticks_add_skips {n : ℕ} (h : ∀ i < n, turns i ≠ .stop) :
    ticks turns n + skips turns n = n := by
  induction n with
  | zero => simp [ticks, skips]
  | succ n ih =>
    have hn := ih fun i hi => h i (by omega)
    have hlast := h n (by omega)
    simp only [ticks, skips, Nat.count_succ] at hn ⊢
    cases hturn : turns n with
    | tick => simp only [reduceCtorEq, if_true, if_false]; omega
    | skip => simp only [reduceCtorEq, if_true, if_false]; omega
    | stop => exact absurd hturn hlast

variable {ι κ : Type*}

/-- **Bounded loops.** For a family of loops, each with a parameter that says how many ticks it
    has: a bound on the turns that depends on the parameter alone exists if and only if there is
    such a bound on the skips that a loop makes before its end. -/
theorem bounded_iff (turns : ι → ℕ → Turn) (param : ι → κ) (need : κ → ℕ) :
    (∃ bound : κ → ℕ, ∀ i, Over (turns i) (need (param i)) (bound (param i))) ↔
      ∃ most : κ → ℕ, ∀ i n, ¬ Over (turns i) (need (param i)) n →
        skips (turns i) n ≤ most (param i) := by
  constructor
  · rintro ⟨bound, hbound⟩
    refine ⟨bound, fun i n hopen => ?_⟩
    by_contra hmany
    have hle : skips (turns i) n ≤ n := skips_le n
    exact hopen ((hbound i).mono (by omega))
  · rintro ⟨most, hmost⟩
    refine ⟨fun k => need k + most k, fun i => ?_⟩
    show Over (turns i) (need (param i)) (need (param i) + most (param i))
    by_contra hopen
    have hskips := hmost i _ hopen
    rw [Over, not_or] at hopen
    obtain ⟨hstop, hticks⟩ := hopen
    have hsum := ticks_add_skips fun i hi hturn => hstop ⟨i, hi, hturn⟩
    omega

end SoftEther.Lib
