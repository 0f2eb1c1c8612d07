import Mathlib.Logic.Relation
import Mathlib.Data.List.Basic

namespace SoftEther.Lib

/-!
# Runs of a deterministic machine

A machine is a step function `σ → α → σ`; whatever the environment decides (a clock
reading, the answer of a system call, the next thread to move) is part of the action.
An action that is not enabled leaves the state alone.

* `run` — the state after a list of actions;
* `Along` — every step of a run meets a condition on the state before it;
* `Always` — a property holds at every point of a run;
* `run_invariant`, `run_invariant_along` — the induction over a run;
* `always_iff_along` — when one step decides a property, a whole run does;
* `reflTransGen_invariant` — the induction over the closure of a relation.
-/

variable {σ α τ : Type*}

/-! ### Runs -/

/-- The state after the actions `as`, first action first. -/
def run (step : σ → α → σ) (s : σ) (as : List α) : σ := as.foldl step s

@[simp] theorem run_cons (step : σ → α → σ) (s : σ) (a : α) (as : List α) :
    run step s (a :: as) = run step (step s a) as := rfl

theorem run_append (step : σ → α → σ) (s : σ) (as bs : List α) :
    run step s (as ++ bs) = run step (run step s as) bs := List.foldl_append

variable {step : σ → α → σ} {I P : σ → Prop} {s : σ} {C : σ → α → Prop} {as : List α}

/-- **Induction over a run.** What every step preserves, a run preserves. -/
theorem run_invariant (hstep : ∀ s a, I s → I (step s a)) (h : I s) (as : List α) :
    I (run step s as) := by
  induction as generalizing s with
  | nil => exact h
  | cons a as ih => exact ih (hstep s a h)

/-! ### Conditions along a run -/

/-- Every step of the run starts in a state that meets `C` for its action. -/
def Along (step : σ → α → σ) (C : σ → α → Prop) : σ → List α → Prop
  | _, [] => True
  | s, a :: as => C s a ∧ Along step C (step s a) as

instance decidableAlong {step : σ → α → σ} {C : σ → α → Prop} [∀ s a, Decidable (C s a)] :
    (s : σ) → (as : List α) → Decidable (Along step C s as)
  | _, [] => inferInstanceAs (Decidable True)
  | s, a :: as =>
    have : Decidable (Along step C (step s a) as) := decidableAlong (step s a) as
    inferInstanceAs (Decidable (C s a ∧ Along step C (step s a) as))

theorem along_and {D : σ → α → Prop} :
    Along step (fun s a => C s a ∧ D s a) s as ↔ Along step C s as ∧ Along step D s as := by
  induction as generalizing s with
  | nil => exact iff_of_true trivial ⟨trivial, trivial⟩
  | cons a as ih =>
    simp only [Along, ih]
    exact and_and_and_comm

/-- `P` holds at every point of the run, its two ends included. -/
def Always (step : σ → α → σ) (P : σ → Prop) : σ → List α → Prop
  | s, [] => P s
  | s, a :: as => P s ∧ Always step P (step s a) as

theorem Always.head (h : Always step P s as) : P s := by
  cases as with
  | nil => exact h
  | cons a as => exact h.1

/-- `Always` speaks about the state after each initial part of the run. -/
theorem always_iff : Always step P s as ↔ ∀ bs, bs <+: as → P (run step s bs) := by
  induction as generalizing s with
  | nil =>
    constructor
    · intro h bs hbs
      rw [List.prefix_nil] at hbs
      subst hbs
      exact h
    · intro h
      exact h [] (List.prefix_refl _)
  | cons a as ih =>
    constructor
    · rintro ⟨hs, hrest⟩ bs hbs
      cases bs with
      | nil => exact hs
      | cons b bs =>
        obtain ⟨rfl, htail⟩ := List.cons_prefix_cons.mp hbs
        exact ih.mp hrest bs htail
    · intro h
      refine ⟨h [] (List.nil_prefix), ih.mpr ?_⟩
      intro bs hbs
      exact h (a :: bs) (List.cons_prefix_cons.mpr ⟨rfl, hbs⟩)

/-- **Induction over a run whose steps meet a condition.** -/
theorem run_invariant_along (hstep : ∀ s a, I s → C s a → I (step s a)) (hC : Along step C s as)
    (h : I s) : I (run step s as) := by
  induction as generalizing s with
  | nil => exact h
  | cons a as ih => exact ih hC.2 (hstep s a h hC.1)

/-- A condition that holds along a run holds along its initial parts. -/
theorem Along.of_initial {bs : List α} (h : Along step C s as) (hbs : bs <+: as) :
    Along step C s bs := by
  induction as generalizing s bs with
  | nil =>
    rw [List.prefix_nil] at hbs
    subst hbs
    exact h
  | cons a as ih =>
    cases bs with
    | nil => trivial
    | cons b bs =>
      obtain ⟨rfl, htail⟩ := List.cons_prefix_cons.mp hbs
      exact ⟨h.1, ih h.2 htail⟩

/-- A condition along a run holds at each of its steps. -/
theorem Along.at {bs : List α} {a : α} (h : Along step C s (as ++ a :: bs)) :
    C (run step s as) a := by
  induction as generalizing s with
  | nil => exact h.1
  | cons b as ih => exact ih h.2

/-- Conditions that agree on every step agree on every run. -/
theorem along_congr {D : σ → α → Prop} (h : ∀ s a, C s a ↔ D s a) (s : σ) (as : List α) :
    Along step C s as ↔ Along step D s as := by
  induction as generalizing s with
  | nil => exact Iff.rfl
  | cons a as ih => exact and_congr (h s a) (ih (step s a))

/-- The invariant of a conditioned run holds at every point of it. -/
theorem always_of_along (hstep : ∀ s a, I s → C s a → I (step s a)) (hP : ∀ s, I s → P s)
    (hC : Along step C s as) (h : I s) : Always step P s as := by
  rw [always_iff]
  intro bs hbs
  exact hP _ (run_invariant_along hstep (hC.of_initial hbs) h)

/-- **When a step decides.** In a run whose steps meet `A`: if, from a state of the
    invariant that has `P`, the next state has `P` exactly when the step meets `C`, then `P`
    holds throughout the run exactly when all its steps meet `C`. -/
theorem always_iff_along_of {A : σ → α → Prop}
    (hstep : ∀ s a, I s → P s → A s a → P (step s a) → I (step s a))
    (hiff : ∀ s a, I s → P s → A s a → (P (step s a) ↔ C s a)) (hI : I s) (hP : P s)
    (hA : Along step A s as) : Always step P s as ↔ Along step C s as := by
  induction as generalizing s with
  | nil => exact ⟨fun _ => trivial, fun _ => hP⟩
  | cons a as ih =>
    obtain ⟨hAa, hArest⟩ := hA
    constructor
    · rintro ⟨_, hrest⟩
      have hPa : P (step s a) := hrest.head
      exact ⟨(hiff s a hI hP hAa).mp hPa, (ih (hstep s a hI hP hAa hPa) hPa hArest).mp hrest⟩
    · rintro ⟨hCa, hrest⟩
      have hPa : P (step s a) := (hiff s a hI hP hAa).mpr hCa
      exact ⟨hP, (ih (hstep s a hI hP hAa hPa) hPa hArest).mpr hrest⟩

theorem along_true (step : σ → α → σ) (s : σ) (as : List α) :
    Along step (fun _ _ => True) s as := by
  induction as generalizing s with
  | nil => trivial
  | cons a as ih => exact ⟨trivial, ih (step s a)⟩

/-- The same, for every run. -/
theorem always_iff_along (hstep : ∀ s a, I s → I (step s a))
    (hiff : ∀ s a, I s → P s → (P (step s a) ↔ C s a)) (hI : I s) (hP : P s) (as : List α) :
    Always step P s as ↔ Along step C s as :=
  always_iff_along_of (fun s a hs _ _ _ => hstep s a hs) (fun s a hs hPs _ => hiff s a hs hPs) hI hP
    (along_true step s as)

/-! ### Relations -/

/-- What every step of a relation preserves, its closure preserves. -/
theorem reflTransGen_invariant {R : τ → τ → Prop} {I : τ → Prop}
    (hstep : ∀ x y, I x → R x y → I y) {x y : τ} (h : Relation.ReflTransGen R x y) (hx : I x) :
    I y := by
  induction h with
  | refl => exact hx
  | tail _ hlast ih => exact hstep _ _ ih hlast

end SoftEther.Lib
