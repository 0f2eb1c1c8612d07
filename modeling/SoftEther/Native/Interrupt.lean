import SoftEther.Native.Coordinator

namespace SoftEther.Native

open Lib

/-!
# Interrupts after the destroy

* `InterruptBeforeDestroy` — a handle is not interrupted once it was handed to `destroyNative`;
* `Coordinator.Settling` — the cleanup has reached its destroy, or is past it;
* `InterruptsWhileHeld` — the condition of a step: no interrupt while the cleanup is settling;
* `interrupt_before_destroy` — in a run whose steps meet the condition no handle is interrupted
  after its destroy.

`requestTeardown` reads the flow and its handle, gives the lock back and interrupts later.  In
between the flow may leave, and its thread, or another teardown, may destroy the handle.
-/

/-! ### The property and the condition -/

/-- `interruptNative(h)` is not called after `destroyNative(h)`. -/
def InterruptBeforeDestroy : Event → List Event → Prop
  | .interruptNative handle, before => .destroyNative handle ∉ before
  | _, _ => True

/-- The owner has called `destroyNative`, or found that it need not, and `cleanupFinished` is not
    written yet. -/
def CleanupPc.pastDestroy : CleanupPc → Bool
  | .destroying _ => true
  | .release => true
  | .record _ => true
  | _ => false

/-- The native handle has been destroyed. -/
def Pc.pastDestroy : Pc → Bool
  | .cleanup _ pc => pc.pastDestroy
  | _ => false

/-- The cleanup is at its destroy, past it or finished. -/
def Coordinator.Settling (s : Coordinator) : Prop :=
  s.cleanupFinished = true ∨ ∃ t, (s.pcs t).pastDestroy = true

/-- An interrupt is made only while no cleanup is settling. -/
def InterruptsWhileHeld (x : Logged Coordinator Event) : Action → Prop
  | .advance t _ => ∀ flow handle, x.state.pcs t = .interrupt flow handle → ¬ x.state.Settling
  | _ => True

/-! ### A settling cleanup goes on settling -/

namespace Coordinator

variable {s s' : Coordinator} {t : ℕ} {pc : Pc}

theorem Settling.of_eq (h : s.Settling) (hpcs : s'.pcs = s.pcs)
    (hfinished : s'.cleanupFinished = s.cleanupFinished) : s'.Settling := by
  unfold Settling
  rw [hpcs, hfinished]
  exact h

/-- A thread moves, and if it was past a destroy it still is or the cleanup is finished. -/
theorem Settling.goto (h : s.Settling) (hpcs : s'.pcs = s.pcs)
    (hfinished : s.cleanupFinished = true → s'.cleanupFinished = true)
    (hpc : (s.pcs t).pastDestroy = true → pc.pastDestroy = true ∨ s'.cleanupFinished = true) :
    (s'.goto t pc).Settling := by
  rcases h with hdone | ⟨u, hu⟩
  · exact .inl (hfinished hdone)
  · rcases eq_or_ne u t with rfl | hne
    · rcases hpc hu with hpast | hdone
      · refine .inr ⟨u, ?_⟩
        rw [goto_pcs_self]
        exact hpast
      · exact .inl hdone
    · refine .inr ⟨u, ?_⟩
      rw [goto_pcs_of_ne s' hne, hpcs]
      exact hu

theorem Settling.advance {e : Option Event} (h : s.Settling) (hmove : Advance s t pc s' e)
    (hpc : s.pcs t = pc) : s'.Settling := by
  have hnot : ∀ (s₁ : Coordinator) pc₁, s₁.pcs = s.pcs → s₁.cleanupFinished = s.cleanupFinished →
      pc.pastDestroy = false → (s₁.goto t pc₁).Settling := by
    intro s₁ pc₁ hpcs hfinished hnot
    refine h.goto hpcs (fun hdone => hfinished.trans hdone) ?_
    intro hpast
    rw [hpc, hnot] at hpast
    cases hpast
  cases hmove with
  | stay => exact h
  | gaveUp pc e hwaits =>
    apply hnot _ _ rfl rfl
    unfold Pc.waits at hwaits
    split at hwaits <;> first | rfl | cases hwaits
  -- The owner goes on from its destroy to `cleanupFinished`.
  | destroyThrew => exact h.goto rfl id fun _ => .inl rfl
  | destroyReturned => exact h.goto rfl id fun _ => .inl rfl
  | release => exact h.goto rfl id fun _ => .inl rfl
  | record => exact h.goto rfl (fun _ => rfl) fun _ => .inr rfl
  | _ => exact hnot _ _ rfl rfl rfl

theorem Settling.step {a : Action} {e : Option Event} (h : s.Settling)
    (heffect : Effect s a s' e) : s'.Settling := by
  have hnot : ∀ (s₁ : Coordinator) t pc₁, s₁.pcs = s.pcs → s₁.cleanupFinished = s.cleanupFinished →
      s.pcs t = .outside → (s₁.goto t pc₁).Settling := by
    intro s₁ t pc₁ hpcs hfinished houtside
    refine h.goto hpcs (fun hdone => hfinished.trans hdone) ?_
    intro hpast
    rw [houtside] at hpast
    cases hpast
  cases heffect with
  | refused => exact h
  | began => exact h.of_eq rfl rfl
  | published flow handle => exact h.of_eq rfl rfl
  | slot a handles => exact h.of_eq rfl rfl
  | left t flow => exact h.of_eq rfl rfl
  | leftOwning t flow houtside => exact hnot _ t _ rfl rfl houtside
  | requested t houtside => exact hnot _ t _ rfl rfl houtside
  | inlineClaim t answer handles handle houtside => exact hnot _ t _ rfl rfl houtside
  | advance t answer hmove => exact h.advance hmove rfl

/-! ### Who calls what -/

/-- A call of `destroyNative` leaves a settling cleanup. -/
theorem settling_of_destroyNative {a : Action} {handle : Handle}
    (heffect : Effect s a s' (some (.destroyNative handle))) : s'.Settling := by
  cases heffect with
  | advance t answer hmove =>
    generalize s.pcs t = pc at hmove
    cases hmove with
    | gaveUp _ _ _ he => exact absurd he (by simp)
    | destroy byTeardown =>
      refine .inr ⟨t, ?_⟩
      rw [goto_pcs_self]
      rfl

/-- A call of `interruptNative` is the step of a thread that read the handle. -/
theorem interrupt_of_effect {a : Action} {handle : Handle}
    (heffect : Effect s a s' (some (.interruptNative handle))) :
    ∃ t answer flow, a = .advance t answer ∧ s.pcs t = .interrupt flow handle := by
  cases heffect with
  | advance t answer hmove =>
    generalize hpc : s.pcs t = pc at hmove
    cases hmove with
    | gaveUp _ _ _ he => exact absurd he (by simp)
    | interrupt flow => exact ⟨t, answer, flow, rfl, hpc⟩

end Coordinator

/-! ### Runs -/

/-- **No interrupt after a destroy.** In a run whose interrupts are made while no cleanup is
    settling, no handle is interrupted after it was handed to `destroyNative`. -/
theorem interrupt_before_destroy (as : List Action)
    (hheld : Along (logStep Coordinator.step) InterruptsWhileHeld ⟨{}, []⟩ as) :
    Checked InterruptBeforeDestroy (coordinatorRun as).log := by
  -- A handle is in the log of destroys only once the cleanup is settling.
  have hstep : ∀ (x : Logged Coordinator Event) a,
      (∀ h, .destroyNative h ∈ x.log → x.state.Settling) → InterruptsWhileHeld x a →
        ∀ h, .destroyNative h ∈ (logStep Coordinator.step x a).log →
          (logStep Coordinator.step x a).state.Settling := by
    intro x a hI _ handle hmem
    have heffect := x.state.step_effect a
    rcases mem_logStep.mp hmem with hnow | hbefore
    · rw [hnow] at heffect
      exact Coordinator.settling_of_destroyNative heffect
    · exact (hI handle hbefore).step heffect
  apply checked_of_along hstep ?_ hheld
  · intro handle hmem
    cases hmem
  · trivial
  · intro x a e hI hC he
    cases e with
    | interruptNative handle =>
      have heffect := x.state.step_effect a
      rw [he] at heffect
      obtain ⟨t, answer, flow, rfl, hpc⟩ := Coordinator.interrupt_of_effect heffect
      intro hmem
      exact hC flow handle hpc (hI handle hmem)
    | _ => trivial

/-- A flow publishes handle 7 in its own field and in the slot, and a teardown reads it there. -/
def teardownMeetsFlow : List Action :=
  [.beginFlow, .publishHandle 0 7, .publish 7, .requestTeardown 1, .advance 1 {}]

/-- The teardown interrupts while the flow runs, and the flow's thread cleans up at its end. -/
theorem interrupt_before_destroy_running :
    Checked InterruptBeforeDestroy (coordinatorRun (teardownMeetsFlow ++
      [.advance 1 {}, .exit 2 0, .advance 2 {}, .advance 2 {}])).log := by
  apply interrupt_before_destroy
  refine ⟨trivial, trivial, trivial, trivial, ?_, ?_, trivial, ?_, ?_, trivial⟩
  · intro flow handle hpc
    cases hpc
  · -- No thread has begun a cleanup.
    rintro flow handle - (hdone | ⟨t, ht⟩)
    · cases hdone
    · rcases eq_or_ne t 1 with rfl | hne
      · cases ht
      · simp [logStep, Coordinator.step, Coordinator.beginFlow, Coordinator.requestTeardown,
          Coordinator.advance, Coordinator.goto, hne, Pc.pastDestroy] at ht
  · intro flow handle hpc
    cases hpc
  · intro flow handle hpc
    cases hpc

/-- The flow leaves and its thread destroys the handle before the teardown interrupts it. -/
theorem interrupt_before_destroy_fails :
    ¬ ∀ as : List Action, Checked InterruptBeforeDestroy (coordinatorRun as).log := by
  intro hall
  have h := hall (teardownMeetsFlow ++ [.exit 2 0, .advance 2 {}, .advance 2 {}, .advance 1 {}])
  have hlog : (coordinatorRun (teardownMeetsFlow ++
      [.exit 2 0, .advance 2 {}, .advance 2 {}, .advance 1 {}])).log =
        [.interruptNative 7, .destroyNative 7, .flowExited 0, .teardownRequested,
          .flowBegan 0] := by
    decide
  rw [hlog] at h
  exact h.1 (by decide)

end SoftEther.Native
