import SoftEther.Accel.Context
import SoftEther.Lib.Transition

namespace SoftEther.Accel

open Lib

/-!
# Runs of the send window

The budget `cwin_bytes` is refilled with the time, halved by a loss and consumed by what is
sent, in any order of these and on any clock.

* `WindowEvent`, `windowStep` — one call at one reading of the clock;
* `BudgetSound` — what the window is for: a loss shrinks the budget, the budget stays below
  its ceiling, and a loss before the first refill is no advantage;
* `cwinBytes_le_max` — the ceiling holds on every run;
* `early_loss_forgotten` — the first refill makes an early loss undone;
* `budgetSound_iff` — the other two hold exactly when no loss finds less than
  `RUDP_CWIN_MIN` in the budget, since a loss then raises it to that floor.
-/

/-! ### Runs -/

/-- The calls that change the window. -/
inductive WindowOp
  | refill
  | loss
  | send (dataSize : ℕ)
  deriving DecidableEq, Repr

/-- A call and the clock it sees. -/
structure WindowEvent where
  now : ℕ
  op : WindowOp
  deriving DecidableEq, Repr

/-- One call, at its time. -/
def windowStep (ctx : RudpContext) (e : WindowEvent) : RudpContext :=
  match e.op with
  | .refill => rudpCwinRefill { ctx with now := e.now }
  | .loss => rudpCwinOnLoss { ctx with now := e.now }
  | .send dataSize => rudpCwinConsume { ctx with now := e.now } dataSize

/-- A context as `rudp_create` leaves it: no window yet. -/
structure FreshWindow (ctx : RudpContext) : Prop where
  cwinInited : ctx.cwinInited = false
  cwinBytes : ctx.cwinBytes = 0

/-- **What the send window promises**, of one run. -/
structure BudgetSound (ctx : RudpContext) (es : List WindowEvent) : Prop where
  loss_le : Along windowStep (fun ctx e => e.op = .loss →
    (windowStep ctx e).cwinBytes ≤ ctx.cwinBytes) ctx es
  bounded : Always windowStep (fun ctx => ctx.cwinBytes ≤ rudpCwinMax) ctx es
  early : ∀ pre now post, pre ++ ⟨now, .loss⟩ :: post <+: es →
    (run windowStep ctx pre).cwinInited = false →
    (run windowStep ctx (pre ++ ⟨now, .loss⟩ :: post)).cwinBytes ≤
      (run windowStep ctx (pre ++ post)).cwinBytes

/-- Losses of the run find at least `RUDP_CWIN_MIN` in the budget. -/
def LossesAboveFloor (ctx : RudpContext) (es : List WindowEvent) : Prop :=
  Along windowStep (fun ctx e => e.op = .loss → rudpCwinMin ≤ ctx.cwinBytes) ctx es

/-! ### One call -/

theorem rudpCwinOnLoss_cwinBytes (ctx : RudpContext) :
    (rudpCwinOnLoss ctx).cwinBytes = max (ctx.cwinBytes / 2) rudpCwinMin := by
  show (if ctx.cwinBytes / 2 < rudpCwinMin then rudpCwinMin else ctx.cwinBytes / 2) = _
  split <;> omega

/-- **A loss.** It does not raise the budget exactly when the budget is not below the
    floor. -/
theorem rudpCwinOnLoss_le_iff (ctx : RudpContext) :
    (rudpCwinOnLoss ctx).cwinBytes ≤ ctx.cwinBytes ↔ rudpCwinMin ≤ ctx.cwinBytes := by
  rw [rudpCwinOnLoss_cwinBytes]
  omega

/-- A refill sets the window up, leaves it alone, or adds to it below the ceiling. -/
theorem rudpCwinRefill_cases (ctx : RudpContext) :
    (rudpCwinRefill ctx).cwinInited = true ∧
      ((ctx.cwinInited = false ∧ (rudpCwinRefill ctx).cwinBytes = rudpCwinStart) ∨
        (ctx.cwinInited = true ∧ (rudpCwinRefill ctx).cwinBytes = ctx.cwinBytes) ∨
        (rudpCwinRefill ctx).cwinBytes ≤ rudpCwinMax) := by
  unfold rudpCwinRefill
  cases hinit : ctx.cwinInited with
  | false => exact ⟨rfl, .inl ⟨rfl, rfl⟩⟩
  | true =>
    simp only [Bool.not_true, Bool.false_eq_true, if_false]
    split
    · exact ⟨hinit, .inr (.inl ⟨trivial, rfl⟩)⟩
    · refine ⟨rfl, .inr (.inr ?_)⟩
      dsimp only
      split <;> omega

theorem rudpCwinRefill_le_max (ctx : RudpContext) (h : ctx.cwinBytes ≤ rudpCwinMax) :
    (rudpCwinRefill ctx).cwinBytes ≤ rudpCwinMax := by
  rcases (rudpCwinRefill_cases ctx).2 with ⟨-, hstart⟩ | ⟨-, hsame⟩ | hmax
  · rw [hstart]
    decide
  · rw [hsame]
    exact h
  · exact hmax

/-- What is sent only takes from the refilled budget. -/
theorem rudpCwinConsume_le (ctx : RudpContext) {size : ℕ} (h : size > 0) :
    (rudpCwinConsume ctx size).cwinBytes ≤ (rudpCwinRefill ctx).cwinBytes := by
  unfold rudpCwinConsume
  rw [if_pos h]
  dsimp only
  split <;> omega

theorem rudpCwinConsume_cwinInited (ctx : RudpContext) {size : ℕ} (h : size > 0) :
    (rudpCwinConsume ctx size).cwinInited = true := by
  unfold rudpCwinConsume
  rw [if_pos h]
  exact (rudpCwinRefill_cases ctx).1

/-! ### The ceiling -/

theorem windowStep_le_max {ctx : RudpContext} (h : ctx.cwinBytes ≤ rudpCwinMax)
    (e : WindowEvent) : (windowStep ctx e).cwinBytes ≤ rudpCwinMax := by
  unfold windowStep
  cases e.op with
  | refill => exact rudpCwinRefill_le_max _ h
  | loss =>
    have hfloor : rudpCwinMin ≤ rudpCwinMax := by decide
    simp only [rudpCwinOnLoss_cwinBytes]
    omega
  | send dataSize =>
    by_cases hsize : dataSize > 0
    · have hrefill := rudpCwinRefill_le_max { ctx with now := e.now } h
      exact Nat.le_trans (rudpCwinConsume_le _ hsize) hrefill
    · simp only [rudpCwinConsume, if_neg hsize]
      exact h

/-- **The ceiling.** The budget never exceeds `RUDP_CWIN_MAX`. -/
theorem cwinBytes_le_max {ctx : RudpContext} (h : ctx.cwinBytes ≤ rudpCwinMax)
    (es : List WindowEvent) :
    Always windowStep (fun ctx => ctx.cwinBytes ≤ rudpCwinMax) ctx es :=
  always_of_along (fun _ e hctx _ => windowStep_le_max hctx e) (fun _ => id)
    (along_true windowStep ctx es) h

/-! ### Before the first refill -/

/-- The first refill sets every field of the window, so it does not matter what was in the
    budget: an early loss is forgotten, except for the time of the loss. -/
theorem early_loss_forgotten {ctx : RudpContext} (hinit : ctx.cwinInited = false) (now : ℕ) :
    rudpCwinRefill (rudpCwinOnLoss { ctx with now := now }) =
      { rudpCwinRefill { ctx with now := now } with lastLossEventTick := now } := by
  unfold rudpCwinRefill rudpCwinOnLoss
  simp only [hinit, Bool.not_false, if_true]

/-- Before the first refill there is nothing in the budget, unless a loss put it there. -/
theorem windowStep_empty {ctx : RudpContext} {e : WindowEvent}
    (h : ctx.cwinInited = false → ctx.cwinBytes = 0)
    (hloss : e.op = .loss → rudpCwinMin ≤ ctx.cwinBytes)
    (hinit : (windowStep ctx e).cwinInited = false) : (windowStep ctx e).cwinBytes = 0 := by
  unfold windowStep at hinit ⊢
  cases hop : e.op with
  | refill =>
    rw [hop] at hinit
    rw [(rudpCwinRefill_cases _).1] at hinit
    exact absurd hinit (by decide)
  | loss =>
    rw [hop] at hinit
    have hzero := h hinit
    have hfloor := hloss hop
    rw [hzero] at hfloor
    exact absurd hfloor (by decide)
  | send dataSize =>
    rw [hop] at hinit
    by_cases hsize : dataSize > 0
    · simp only [rudpCwinConsume_cwinInited _ hsize] at hinit
      exact absurd hinit (by decide)
    · simp only [rudpCwinConsume, if_neg hsize] at hinit ⊢
      exact h hinit

/-! ### When the promise is kept -/

/-- **The send budget.** For every run of refills, losses and sends from a fresh context, on
    any clock: no loss raises the budget, it stays within `RUDP_CWIN_MAX`, and a loss before
    the first refill is no advantage, if and only if every loss finds at least
    `RUDP_CWIN_MIN` in the budget. -/
theorem budgetSound_iff (ctx : RudpContext) (hfresh : FreshWindow ctx) (es : List WindowEvent) :
    BudgetSound ctx es ↔ LossesAboveFloor ctx es := by
  have hloss : Along windowStep (fun ctx e => e.op = .loss →
      (windowStep ctx e).cwinBytes ≤ ctx.cwinBytes) ctx es ↔ LossesAboveFloor ctx es := by
    apply along_congr
    intro s e
    apply imp_congr_right
    intro hop
    simp only [windowStep, hop]
    exact rudpCwinOnLoss_le_iff { s with now := e.now }
  constructor
  · intro h
    exact hloss.mp h.loss_le
  · intro h
    refine ⟨hloss.mpr h, ?_, ?_⟩
    · apply cwinBytes_le_max
      rw [hfresh.cwinBytes]
      exact Nat.zero_le _
    · -- with losses above the floor there is no loss before the first refill
      intro pre now post hpre hinit
      have hinitial : pre <+: es := (List.prefix_append pre _).trans hpre
      have hempty : (run windowStep ctx pre).cwinInited = false →
          (run windowStep ctx pre).cwinBytes = 0 :=
        run_invariant_along (I := fun s => s.cwinInited = false → s.cwinBytes = 0)
          (fun s e hs hC => windowStep_empty hs hC) (h.of_initial hinitial)
          fun _ => hfresh.cwinBytes
      have hfloor := (h.of_initial hpre).at rfl
      rw [hempty hinit] at hfloor
      exact absurd hfloor (by decide)

theorem sampleContext_fresh : FreshWindow sampleContext := ⟨rfl, rfl⟩

/-- A refill, a loss with a full budget and a send. -/
theorem budgetSound_iff_sample :
    BudgetSound sampleContext [⟨1000, .refill⟩, ⟨1001, .loss⟩, ⟨1002, .send 1400⟩] ↔
      LossesAboveFloor sampleContext [⟨1000, .refill⟩, ⟨1001, .loss⟩, ⟨1002, .send 1400⟩] :=
  budgetSound_iff sampleContext sampleContext_fresh _

/-- The start budget is spent at once; the loss that follows makes it 32 KiB. -/
theorem loss_raises_spent_budget :
    ¬ ∀ ctx : RudpContext, FreshWindow ctx → ∀ es : List WindowEvent,
      es.Pairwise (fun a b => a.now ≤ b.now) → BudgetSound ctx es := by
  intro h
  have hsound := h sampleContext sampleContext_fresh
    [⟨1000, .refill⟩, ⟨1000, .send (256 * 1024)⟩, ⟨1000, .loss⟩] (by decide)
  exact absurd (hsound.loss_le.2.2.1 rfl) (by decide)

end SoftEther.Accel
