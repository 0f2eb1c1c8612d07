import SoftEther.Lib.Transition

namespace SoftEther.Lib

/-!
# Machines that log their calls

A step may emit an event, such as a call that leaves the machine.  The log holds the events
so far, the latest first.  Orders of calls ("`a` is never called after `b`") are conditions on
one event and the events before it.

* `Checked R` — every event of a log meets `R` with the events before it;
* `logStep` — a step of a machine that emits events, next to the log;
* `checked_of_along` — what an invariant says of every emitted event, the log shows;
* `checked_iff_along` — the same as an equivalence with a condition on the steps.
-/

variable {σ α ε : Type*}

/-! ### Conditions on a log -/

/-- Every event of the log meets `R` with the events before it. -/
def Checked (R : ε → List ε → Prop) : List ε → Prop
  | [] => True
  | e :: before => R e before ∧ Checked R before

variable {R R' : ε → List ε → Prop}

instance decidableChecked [∀ e before, Decidable (R e before)] :
    (log : List ε) → Decidable (Checked R log)
  | [] => inferInstanceAs (Decidable True)
  | e :: before =>
    have : Decidable (Checked R before) := decidableChecked before
    inferInstanceAs (Decidable (R e before ∧ Checked R before))

variable {e : ε}

@[simp] theorem checked_cons {before : List ε} :
    Checked R (e :: before) ↔ R e before ∧ Checked R before := Iff.rfl

/-- The last event of a checked log. -/
theorem Checked.head {log before : List ε} (h : Checked R log) (hlog : log = e :: before) :
    R e before := by
  subst hlog
  exact h.1

theorem Checked.and {log : List ε} (h : Checked R log) (h' : Checked R' log) :
    Checked (fun e before => R e before ∧ R' e before) log := by
  induction log with
  | nil => trivial
  | cons e before ih => exact ⟨⟨h.1, h'.1⟩, ih h.2 h'.2⟩

/-! ### A machine next to its log -/

/-- The state of a machine and the events it emitted so far. -/
structure Logged (σ ε : Type*) where
  state : σ
  log : List ε

variable {step : σ → α → σ × Option ε}

/-- One step; the event it emits goes to the log. -/
def logStep (step : σ → α → σ × Option ε) (x : Logged σ ε) (a : α) : Logged σ ε where
  state := (step x.state a).1
  log := (step x.state a).2.toList ++ x.log

variable {x : Logged σ ε}

theorem mem_logStep {a : α} :
    e ∈ (logStep step x a).log ↔ (step x.state a).2 = some e ∨ e ∈ x.log := by
  rw [logStep, List.mem_append, Option.mem_toList]

/-- The log of one more step. -/
theorem checked_logStep {a : α} : Checked R (logStep step x a).log ↔
      (∀ e, (step x.state a).2 = some e → R e x.log) ∧ Checked R x.log := by
  rw [logStep]
  cases h : (step x.state a).2 with
  | none =>
    simp only [Option.toList, List.nil_append]
    exact ⟨fun hlog => ⟨nofun, hlog⟩, And.right⟩
  | some e =>
    simp only [Option.toList, List.singleton_append, checked_cons]
    constructor
    · rintro ⟨hlast, hlog⟩
      refine ⟨?_, hlog⟩
      rintro _ ⟨rfl⟩
      exact hlast
    · rintro ⟨hlast, hlog⟩
      exact ⟨hlast e rfl, hlog⟩

/-! ### Runs -/

variable {I : Logged σ ε → Prop}

/-- **A run of a logging machine.** If the invariant is kept by the steps that meet `C`, and
    says that what they emit meets `R`, every event of the run meets `R`. -/
theorem checked_of_along {C : Logged σ ε → α → Prop}
    (hstep : ∀ x a, I x → C x a → I (logStep step x a))
    (hemit : ∀ x a e, I x → C x a → (step x.state a).2 = some e → R e x.log) {as : List α}
    (hC : Along (logStep step) C x as) (hI : I x) (hlog : Checked R x.log) :
    Checked R (run (logStep step) x as).log := by
  have hkeep : ∀ x a, I x ∧ Checked R x.log → C x a →
      I (logStep step x a) ∧ Checked R (logStep step x a).log := by
    rintro x a ⟨hI, hlog⟩ hC
    refine ⟨hstep x a hI hC, checked_logStep.mpr ⟨?_, hlog⟩⟩
    intro e he
    exact hemit x a e hI hC he
  exact (run_invariant_along (I := fun x => I x ∧ Checked R x.log) hkeep hC ⟨hI, hlog⟩).2

/-- The same for every run. -/
theorem checked_of_invariant (hstep : ∀ x a, I x → I (logStep step x a))
    (hemit : ∀ x a e, I x → (step x.state a).2 = some e → R e x.log) (hI : I x)
    (hlog : Checked R x.log) (as : List α) : Checked R (run (logStep step) x as).log :=
  checked_of_along (fun x a hI _ => hstep x a hI) (fun x a e hI _ => hemit x a e hI)
    (along_true _ x as) hI hlog

/-- A log only grows, so what was checked at the end was checked before. -/
theorem checked_of_run {as : List α} (h : Checked R (run (logStep step) x as).log) :
    Checked R x.log := by
  induction as generalizing x with
  | nil => exact h
  | cons a as ih => exact (checked_logStep.mp (ih h)).2

/-- **When a step decides what its event meets**, the log of a run is checked exactly when all its
    steps meet the condition. -/
theorem checked_iff_along {C : Logged σ ε → α → Prop}
    (hstep : ∀ x a, I x → C x a → I (logStep step x a))
    (hiff : ∀ x a, I x → ((∀ e, (step x.state a).2 = some e → R e x.log) ↔ C x a)) (hI : I x)
    (hlog : Checked R x.log) (as : List α) :
    Checked R (run (logStep step) x as).log ↔ Along (logStep step) C x as := by
  induction as generalizing x with
  | nil => exact ⟨fun _ => trivial, fun _ => hlog⟩
  | cons a as ih =>
    constructor
    · intro h
      have hnext := checked_of_run (x := logStep step x a) h
      have hC := (hiff x a hI).mp (checked_logStep.mp hnext).1
      exact ⟨hC, (ih (hstep x a hI hC) hnext).mp h⟩
    · rintro ⟨hC, hrest⟩
      have hnext := checked_logStep.mpr ⟨(hiff x a hI).mpr hC, hlog⟩
      exact (ih (hstep x a hI hC) hnext).mpr hrest

end SoftEther.Lib
