import Mathlib.Algebra.Order.Group.Int
import SoftEther.Lib.Threads
import SoftEther.Lib.Transition

namespace SoftEther.Accel

open Lib

/-!
# The lifetime of a context (`rudp_ref_acquire`, `rudp_ref_release`, `rudp_destroy`)

Any number of threads make calls to the public entry points and one more calls
`rudp_destroy`.  One action is one atomic step of one thread: a load, a compare-and-swap,
a subtraction, or the run of `rudp_destroy_final`.

* the context's mutex is left out, which allows more interleavings than the code does;
* inside an entry point a thread can call another one, as `rudp_poll` calls `rudp_send`;
* memory is sequentially consistent, and after `rudp_destroy_final` the two words keep
  their last values;
* the count is an integer: it stays below the number of calls in progress.

`Counted` is the invariant: the count is the number of references, and
`rudp_destroy_final` has been claimed exactly when the count is zero.
-/

/-! ### The program -/

/-- Where a call to an entry point is. -/
inductive Pc
  /-- `old = ctx->refcount` -/
  | load
  /-- `if (ctx->destroying) return 0`, with the count that was read -/
  | checkDestroying (old : { n : ℤ // 0 < n })
  /-- the compare-and-swap -/
  | swap (old : { n : ℤ // 0 < n })
  /-- the second look at `destroying` -/
  | recheck
  /-- `rudp_ref_acquire` returned 1 -/
  | body
  /-- `rudp_ref_release`: the subtraction -/
  | release
  /-- `rudp_ref_release`: the count was zero -/
  | final
  deriving DecidableEq

/-- Where `rudp_destroy` is. -/
inductive DestroyPc
  | idle
  | flagged
  | final
  | returned
  deriving DecidableEq, Repr

/-- The two shared words, the threads, and what has happened so far: the runs of
    `rudp_destroy_final` and the successful acquires. -/
structure Lifetime (ι : Type) where
  refcount : ℤ
  destroying : Bool
  threads : Pool ι Pc
  destroyer : DestroyPc
  finalRuns : ℕ
  acquired : ℕ

/-- What happens next: a thread calls, or one of the threads goes on. -/
inductive LifetimeAction (ι : Type)
  /-- thread `i` calls an entry point -/
  | call (i : ι)
  /-- thread `i` makes its next step -/
  | step (i : ι)
  /-- the destroying thread makes its next step -/
  | destroy

variable {ι : Type}

/-- `rudp_create`: the owner holds the only reference. -/
def rudpCreate : Lifetime ι where
  refcount := 1
  destroying := false
  threads := Pool.idle
  destroyer := .idle
  finalRuns := 0
  acquired := 0

section Program

variable [DecidableEq ι]

/-- One step of a call whose running frame is at `pc`. -/
def rudpCallStep (s : Lifetime ι) (i : ι) : Pc → Lifetime ι
  | .load =>
    if h : 0 < s.refcount then
      { s with threads := s.threads.goto i (.checkDestroying ⟨s.refcount, h⟩) }
    else { s with threads := s.threads.ret i }
  | .checkDestroying old =>
    if s.destroying then { s with threads := s.threads.ret i }
    else { s with threads := s.threads.goto i (.swap old) }
  | .swap old =>
    if s.refcount = old then
      { s with refcount := s.refcount + 1, threads := s.threads.goto i .recheck }
    else { s with threads := s.threads.goto i .load }
  | .recheck =>
    if s.destroying then { s with threads := s.threads.goto i .release }
    else { s with acquired := s.acquired + 1, threads := s.threads.goto i .body }
  | .body => { s with threads := s.threads.goto i .release }
  | .release =>
    if s.refcount - 1 = 0 then
      { s with refcount := s.refcount - 1, threads := s.threads.goto i .final }
    else { s with refcount := s.refcount - 1, threads := s.threads.ret i }
  | .final => { s with finalRuns := s.finalRuns + 1, threads := s.threads.ret i }

/-- `rudp_destroy`. -/
def rudpDestroyStep (s : Lifetime ι) : Lifetime ι :=
  match s.destroyer with
  | .idle => { s with destroying := true, destroyer := .flagged }
  | .flagged =>
    if s.refcount - 1 = 0 then { s with refcount := s.refcount - 1, destroyer := .final }
    else { s with refcount := s.refcount - 1, destroyer := .returned }
  | .final => { s with finalRuns := s.finalRuns + 1, destroyer := .returned }
  | .returned => s

/-- A thread calls an entry point when it is in no call, or in the body of one. -/
def rudpCall (s : Lifetime ι) (i : ι) : Lifetime ι :=
  match s.threads.top i with
  | none => { s with threads := s.threads.call i .load }
  | some .body => { s with threads := s.threads.call i .load }
  | some _ => s

/-- One action. -/
def lifetimeStep (s : Lifetime ι) : LifetimeAction ι → Lifetime ι
  | .call i => rudpCall s i
  | .step i =>
    match s.threads.top i with
    | none => s
    | some pc => rudpCallStep s i pc
  | .destroy => rudpDestroyStep s

end Program

/-! ### `rudp_destroy` returns -/

section Progress

/-- The steps that `rudp_destroy` still makes, at most. -/
def DestroyPc.left : DestroyPc → ℕ
  | .idle => 3
  | .flagged => 2
  | .final => 1
  | .returned => 0

/-- The step is one of `rudp_destroy`. -/
def LifetimeAction.isDestroy : LifetimeAction ι → Bool
  | .destroy => true
  | _ => false

variable [DecidableEq ι]

/-- A step of a call leaves `rudp_destroy` where it is. -/
theorem rudpCallStep_destroyer (s : Lifetime ι) (i : ι) (pc : Pc) :
    (rudpCallStep s i pc).destroyer = s.destroyer := by
  cases pc <;> simp only [rudpCallStep] <;> split <;> rfl

/-- **Each of its steps brings `rudp_destroy` nearer to its end**, and no other step takes it
    back. -/
theorem lifetimeStep_left (s : Lifetime ι) (a : LifetimeAction ι) :
    (lifetimeStep s a).destroyer.left ≤ s.destroyer.left - a.isDestroy.toNat := by
  cases a with
  | call i =>
    simp only [lifetimeStep, rudpCall]
    split <;> exact le_rfl
  | step i =>
    simp only [lifetimeStep]
    split
    · exact le_rfl
    · rw [rudpCallStep_destroyer]
      exact le_rfl
  | destroy =>
    simp only [lifetimeStep, rudpDestroyStep]
    cases hd : s.destroyer with
    | idle => exact Nat.le_refl 2
    | flagged =>
      dsimp only
      split
      · exact Nat.le_refl 1
      · exact Nat.zero_le 1
    | final => exact Nat.zero_le 0
    | returned =>
      rw [hd]
      exact Nat.zero_le 0

/-- Three steps take `rudp_destroy` to its end. -/
theorem run_left (s : Lifetime ι) (as : List (LifetimeAction ι)) :
    (run lifetimeStep s as).destroyer.left ≤
      s.destroyer.left - as.countP LifetimeAction.isDestroy := by
  induction as generalizing s with
  | nil => exact le_rfl
  | cons a as ih =>
    have hstep := lifetimeStep_left s a
    have hrest := ih (lifetimeStep s a)
    have hcount : (a :: as).countP LifetimeAction.isDestroy =
        as.countP LifetimeAction.isDestroy + a.isDestroy.toNat := by
      cases ha : a.isDestroy <;> simp [ha]
    rw [run_cons]
    omega

end Progress

/-! ### References -/

/-- The call holds a reference. -/
def Pc.holds : Pc → Bool
  | .recheck => true
  | .body => true
  | .release => true
  | _ => false

/-- The call is about to run `rudp_destroy_final`. -/
def Pc.isFinal : Pc → Bool
  | .final => true
  | _ => false

/-- The owner's reference, until `rudp_destroy` drops it. -/
def DestroyPc.owner : DestroyPc → ℕ
  | .idle => 1
  | .flagged => 1
  | .final => 0
  | .returned => 0

/-- The destroyer is in the final run. -/
def DestroyPc.isFinal : DestroyPc → Bool
  | .final => true
  | _ => false

variable [Fintype ι]

/-- The references that calls hold. -/
def Lifetime.held (s : Lifetime ι) : ℕ := s.threads.count Pc.holds

/-- The runs of `rudp_destroy_final` that have happened or are claimed. -/
def Lifetime.finals (s : Lifetime ι) : ℕ :=
  s.finalRuns + s.threads.count Pc.isFinal + s.destroyer.isFinal.toNat

/-- **The count is right**: it is the number of references, and the last one to drop its
    reference has claimed the final run. -/
structure Counted (s : Lifetime ι) : Prop where
  refcount_eq : s.refcount = s.destroyer.owner + s.held
  live : 0 < s.refcount → s.finals = 0
  dead : s.refcount = 0 → s.finals = 1

theorem counted_create : Counted (rudpCreate : Lifetime ι) where
  refcount_eq := by simp [rudpCreate, Lifetime.held, DestroyPc.owner]
  live := by simp [rudpCreate, Lifetime.finals, DestroyPc.isFinal]
  dead := by simp [rudpCreate]

variable {s : Lifetime ι} {pc : Pc} {i : ι}

/-- Every step of `rudp_destroy` keeps the count right. -/
theorem Counted.destroyStep (h : Counted s) : Counted (rudpDestroyStep s) := by
  have heq := h.refcount_eq
  have hlive := h.live
  have hdead := h.dead
  simp only [Lifetime.held, Lifetime.finals] at heq hlive hdead
  unfold rudpDestroyStep
  cases hd : s.destroyer with
  | idle =>
    simp only [hd, DestroyPc.owner, DestroyPc.isFinal, Bool.toNat_false] at heq hlive hdead
    constructor <;>
      simp only [Lifetime.held, Lifetime.finals, DestroyPc.owner, DestroyPc.isFinal,
        Bool.toNat_false] <;> omega
  | flagged =>
    simp only [hd, DestroyPc.owner, DestroyPc.isFinal, Bool.toNat_false] at heq hlive hdead
    dsimp only
    split <;> constructor <;>
      simp only [Lifetime.held, Lifetime.finals, DestroyPc.owner, DestroyPc.isFinal,
        Bool.toNat_false, Bool.toNat_true] <;> omega
  | final =>
    simp only [hd, DestroyPc.owner, DestroyPc.isFinal, Bool.toNat_true] at heq hlive hdead
    constructor <;>
      simp only [Lifetime.held, Lifetime.finals, DestroyPc.owner, DestroyPc.isFinal,
        Bool.toNat_false] <;> omega
  | returned => exact h

/-- Once the final run has happened there is no reference left. -/
theorem Counted.held_eq_zero (h : Counted s) (hfinal : 0 < s.finals) :
    s.refcount = 0 ∧ s.held = 0 ∧ s.destroyer.owner = 0 := by
  have heq := h.refcount_eq
  have hlive := h.live
  omega

/-- Every call has let go of its reference and none is about to run `rudp_destroy_final`. -/
def Lifetime.Released (s : Lifetime ι) : Prop :=
  ∀ i, ∀ pc ∈ s.threads i, pc.holds = false ∧ pc.isFinal = false

/-- With every reference dropped, the final run has happened. -/
theorem Counted.final_of_released (h : Counted s) (hret : s.destroyer = .returned)
    (hreleased : s.Released) : s.finalRuns = 1 := by
  have heq := h.refcount_eq
  have hdead := h.dead
  have hheld : s.held = 0 := Pool.count_eq_zero.mpr (fun i pc hpc => (hreleased i pc hpc).1)
  have hfin : s.threads.count Pc.isFinal = 0 :=
    Pool.count_eq_zero.mpr (fun i pc hpc => (hreleased i pc hpc).2)
  simp only [Lifetime.finals, hret, DestroyPc.owner, DestroyPc.isFinal, Bool.toNat_false]
    at heq hdead
  omega

variable [DecidableEq ι]

/-- A step of the running frame from `pc` to `pc'` that changes the count by as much as it
    changes the references. -/
theorem Counted.goto (h : Counted s) {pc' : Pc} (htop : s.threads.top i = some pc)
    (destroying : Bool) (acquired : ℕ) (hsame : pc.holds = pc'.holds)
    (hfinal : pc.isFinal = pc'.isFinal) : Counted { s with
      destroying := destroying, acquired := acquired, threads := s.threads.goto i pc' } := by
  have hheld := Pool.count_goto htop Pc.holds pc'
  have hfin := Pool.count_goto htop Pc.isFinal pc'
  rw [hsame] at hheld
  rw [hfinal] at hfin
  have heq := h.refcount_eq
  have hlive := h.live
  have hdead := h.dead
  simp only [Lifetime.held, Lifetime.finals] at heq hlive hdead
  constructor <;> simp only [Lifetime.held, Lifetime.finals] <;> omega

/-- A call without a reference returns. -/
theorem Counted.ret (h : Counted s) (htop : s.threads.top i = some pc) (hno : pc.holds = false)
    (hnofinal : pc.isFinal = false) : Counted { s with threads := s.threads.ret i } := by
  have hheld := Pool.count_ret htop Pc.holds
  have hfin := Pool.count_ret htop Pc.isFinal
  rw [hno, Bool.toNat_false] at hheld
  rw [hnofinal, Bool.toNat_false] at hfin
  have heq := h.refcount_eq
  have hlive := h.live
  have hdead := h.dead
  simp only [Lifetime.held, Lifetime.finals] at heq hlive hdead
  constructor <;> simp only [Lifetime.held, Lifetime.finals] <;> omega

/-- A call starts. -/
theorem Counted.call (h : Counted s) (i : ι) :
    Counted { s with threads := s.threads.call i .load } := by
  have hheld := Pool.count_call s.threads Pc.holds i .load
  have hfin := Pool.count_call s.threads Pc.isFinal i .load
  simp only [Pc.holds, Pc.isFinal, Bool.toNat_false] at hheld hfin
  have heq := h.refcount_eq
  have hlive := h.live
  have hdead := h.dead
  simp only [Lifetime.held, Lifetime.finals] at heq hlive hdead
  constructor <;> simp only [Lifetime.held, Lifetime.finals] <;> omega

/-- **Every step of a call keeps the count right.** -/
theorem Counted.callStep (h : Counted s) (htop : s.threads.top i = some pc) :
    Counted (rudpCallStep s i pc) := by
  have heq := h.refcount_eq
  have hlive := h.live
  have hdead := h.dead
  simp only [Lifetime.held, Lifetime.finals] at heq hlive hdead
  cases pc with
  | load =>
    simp only [rudpCallStep]
    split
    · exact h.goto htop _ _ rfl rfl
    · exact h.ret htop rfl rfl
  | checkDestroying old =>
    simp only [rudpCallStep]
    split
    · exact h.ret htop rfl rfl
    · exact h.goto htop _ _ rfl rfl
  | swap old =>
    simp only [rudpCallStep]
    split
    · -- the count that was read was positive, so the context is alive
      rename_i hold
      have hpos := old.2
      have hheld := Pool.count_goto htop Pc.holds .recheck
      have hfin := Pool.count_goto htop Pc.isFinal .recheck
      simp only [Pc.holds, Pc.isFinal, Bool.toNat_false, Bool.toNat_true] at hheld hfin
      constructor <;> simp only [Lifetime.held, Lifetime.finals] <;> omega
    · exact h.goto htop _ _ rfl rfl
  | recheck =>
    simp only [rudpCallStep]
    split
    · exact h.goto htop _ _ rfl rfl
    · exact h.goto htop _ _ rfl rfl
  | body => exact h.goto htop _ _ rfl rfl
  | release =>
    simp only [rudpCallStep]
    split
    · -- the last reference claims the final run
      have hheld := Pool.count_goto htop Pc.holds .final
      have hfin := Pool.count_goto htop Pc.isFinal .final
      simp only [Pc.holds, Pc.isFinal, Bool.toNat_false, Bool.toNat_true] at hheld hfin
      constructor <;> simp only [Lifetime.held, Lifetime.finals] <;> omega
    · have hheld := Pool.count_ret htop Pc.holds
      have hfin := Pool.count_ret htop Pc.isFinal
      simp only [Pc.holds, Pc.isFinal, Bool.toNat_false, Bool.toNat_true] at hheld hfin
      constructor <;> simp only [Lifetime.held, Lifetime.finals] <;> omega
  | final =>
    have hheld := Pool.count_ret htop Pc.holds
    have hfin := Pool.count_ret htop Pc.isFinal
    simp only [Pc.holds, Pc.isFinal, Bool.toNat_false, Bool.toNat_true] at hheld hfin
    constructor <;> simp only [rudpCallStep, Lifetime.held, Lifetime.finals] <;> omega

/-- **Step lemma.** -/
theorem Counted.step (h : Counted s) (a : LifetimeAction ι) : Counted (lifetimeStep s a) := by
  cases a with
  | call i =>
    simp only [lifetimeStep, rudpCall]
    split
    · exact h.call i
    · exact h.call i
    · exact h
  | step i =>
    simp only [lifetimeStep]
    cases htop : s.threads.top i with
    | none => exact h
    | some pc => exact h.callStep htop
  | destroy => exact h.destroyStep

/-! ### The lifetime -/

/-- **What one step adds to the history**: a final run that was claimed, or the success of
    an acquire that holds its reference. -/
theorem lifetimeStep_history (s : Lifetime ι) (a : LifetimeAction ι) :
    ((lifetimeStep s a).finalRuns = s.finalRuns ∨
        (lifetimeStep s a).finalRuns = s.finalRuns + 1 ∧ 0 < s.finals) ∧
      ((lifetimeStep s a).acquired = s.acquired ∨ 0 < s.held) := by
  cases a with
  | call i =>
    simp only [lifetimeStep, rudpCall]
    split <;> exact ⟨Or.inl rfl, Or.inl rfl⟩
  | step i =>
    simp only [lifetimeStep]
    cases htop : s.threads.top i with
    | none => exact ⟨Or.inl rfl, Or.inl rfl⟩
    | some pc =>
      cases pc with
      | load => simp only [rudpCallStep]; split <;> exact ⟨Or.inl rfl, Or.inl rfl⟩
      | checkDestroying old =>
        simp only [rudpCallStep]; split <;> exact ⟨Or.inl rfl, Or.inl rfl⟩
      | swap old => simp only [rudpCallStep]; split <;> exact ⟨Or.inl rfl, Or.inl rfl⟩
      | recheck =>
        have hpos : 0 < s.held := Pool.count_pos_of_top htop rfl
        simp only [rudpCallStep]
        split <;> exact ⟨Or.inl rfl, Or.inr hpos⟩
      | body => exact ⟨Or.inl rfl, Or.inl rfl⟩
      | release => simp only [rudpCallStep]; split <;> exact ⟨Or.inl rfl, Or.inl rfl⟩
      | final =>
        have hpos : 0 < s.threads.count Pc.isFinal := Pool.count_pos_of_top htop rfl
        exact ⟨Or.inr ⟨rfl, by unfold Lifetime.finals; omega⟩, Or.inl rfl⟩
  | destroy =>
    simp only [lifetimeStep, rudpDestroyStep]
    cases hd : s.destroyer with
    | idle => exact ⟨Or.inl rfl, Or.inl rfl⟩
    | flagged => dsimp only; split <;> exact ⟨Or.inl rfl, Or.inl rfl⟩
    | final =>
      have hpos : 0 < s.destroyer.isFinal.toNat := by rw [hd]; decide
      exact ⟨Or.inr ⟨rfl, by unfold Lifetime.finals; omega⟩, Or.inl rfl⟩
    | returned => exact ⟨Or.inl rfl, Or.inl rfl⟩

/-- Whatever happens after the final run, no acquire succeeds. -/
theorem Counted.acquired_after (h : Counted s) (hfinal : 0 < s.finalRuns)
    (bs : List (LifetimeAction ι)) : (run lifetimeStep s bs).acquired = s.acquired := by
  have hrun : Counted (run lifetimeStep s bs) ∧ 0 < (run lifetimeStep s bs).finalRuns ∧
      (run lifetimeStep s bs).acquired = s.acquired := by
    refine run_invariant (I := fun t : Lifetime ι =>
      Counted t ∧ 0 < t.finalRuns ∧ t.acquired = s.acquired) ?_ ⟨h, hfinal, rfl⟩ bs
    rintro t a ⟨ht, htfinal, htacq⟩
    have hzero := (ht.held_eq_zero (by unfold Lifetime.finals; omega)).2.1
    obtain ⟨hruns, hacq⟩ := lifetimeStep_history t a
    exact ⟨ht.step a, by omega, by omega⟩
  exact hrun.2.2

/-- **The lifetime of a context is safe** in state `s`. -/
structure LifetimeSafe (s : Lifetime ι) : Prop where
  /-- `rudp_destroy_final` runs at most once -/
  final_once : s.finalRuns ≤ 1
  /-- once it has run no reference is outstanding -/
  final_unreferenced : 0 < s.finalRuns → s.held = 0 ∧ s.destroyer.owner = 0
  /-- nor is one in the step that runs it -/
  final_step : ∀ a, s.finalRuns < (lifetimeStep s a).finalRuns →
    s.held = 0 ∧ s.destroyer.owner = 0
  /-- whatever happens afterwards, no acquire succeeds -/
  final_last : 0 < s.finalRuns → ∀ bs, (run lifetimeStep s bs).acquired = s.acquired

theorem Counted.lifetimeSafe (h : Counted s) : LifetimeSafe s where
  final_once := by
    have heq := h.refcount_eq
    have hlive := h.live
    have hdead := h.dead
    simp only [Lifetime.finals] at hlive hdead
    omega
  final_unreferenced := by
    intro hpos
    exact (h.held_eq_zero (by unfold Lifetime.finals; omega)).2
  final_step := by
    intro a hlt
    obtain ⟨hruns, -⟩ := lifetimeStep_history s a
    exact (h.held_eq_zero (by omega)).2
  final_last := h.acquired_after

omit [Fintype ι] in
/-- A thread calls out of the body of a call only. -/
theorem lifetimeStep_below (h : s.threads.Below (· = .body)) (a : LifetimeAction ι) :
    (lifetimeStep s a).threads.Below (· = .body) := by
  cases a with
  | call i =>
    simp only [lifetimeStep, rudpCall]
    split
    · exact h.call (by simp [*])
    · exact h.call (by simp [*])
    · exact h
  | step i =>
    simp only [lifetimeStep]
    split
    · exact h
    · rename_i pc _
      cases pc <;> simp only [rudpCallStep] <;> (try split) <;> first | exact h.goto | exact h.ret
  | destroy =>
    simp only [lifetimeStep, rudpDestroyStep]
    split <;> (try split) <;> exact h

/-- **The final run comes.** -/
structure FinalComes (s : Lifetime ι) : Prop where
  /-- it has happened when all calls have let go of their references -/
  released : s.Released → s.finalRuns = 1
  /-- where a call has just dropped the last one, its next step is the final run -/
  next : s.held = 0 → s.finalRuns = 1 ∨ ∃ i, (lifetimeStep s (.step i)).finalRuns = 1

theorem Counted.finalComes (h : Counted s) (hbelow : s.threads.Below (· = .body))
    (hret : s.destroyer = .returned) : FinalComes s where
  released := h.final_of_released hret
  next := by
    intro hheld
    have heq := h.refcount_eq
    have hdead := h.dead
    simp only [Lifetime.finals, hret, DestroyPc.owner, DestroyPc.isFinal, Bool.toNat_false,
      hheld] at heq hdead
    by_cases hnone : s.threads.count Pc.isFinal = 0
    · left
      omega
    · -- the frame at the final run is the running one: those below are in the body
      right
      obtain ⟨i, pc, hpc, hfinal⟩ : ∃ i, ∃ pc ∈ s.threads i, pc.isFinal = true := by
        rw [Pool.count_eq_zero] at hnone
        simpa using hnone
      obtain rfl : pc = .final := by cases pc <;> simp [Pc.isFinal] at hfinal ⊢
      obtain ⟨a, l, hstack⟩ := List.exists_cons_of_ne_nil (List.ne_nil_of_mem hpc)
      rcases List.mem_cons.mp (hstack ▸ hpc) with rfl | hin
      · refine ⟨i, ?_⟩
        have htop : s.threads.top i = some .final := by simp [Pool.top, hstack]
        simp only [lifetimeStep, htop, rudpCallStep]
        omega
      · exact absurd (hbelow i .final (by simpa [hstack] using hin)) (by decide)

/-- **The reference count guards the context.** For any number of threads and every
    interleaving of their calls, nested ones included, with one `rudp_destroy`; and when
    `rudp_destroy` has been called, which takes three steps at most, and the calls have let go
    of their references, `rudp_destroy_final` has run. -/
theorem context_lifetime (as : List (LifetimeAction ι)) :
    LifetimeSafe (run lifetimeStep (rudpCreate : Lifetime ι) as) ∧
      (3 ≤ as.countP LifetimeAction.isDestroy →
        FinalComes (run lifetimeStep (rudpCreate : Lifetime ι) as)) := by
  obtain ⟨hrun, hbelow⟩ := run_invariant
    (I := fun s : Lifetime ι => Counted s ∧ s.threads.Below (· = .body))
    (fun _ a hs => ⟨hs.1.step a, lifetimeStep_below hs.2 a⟩)
    ⟨counted_create, fun _ _ => nofun⟩ as
  refine ⟨hrun.lifetimeSafe, fun hcalled => hrun.finalComes hbelow ?_⟩
  have hleft := run_left (rudpCreate : Lifetime ι) as
  have hzero : (run lifetimeStep (rudpCreate : Lifetime ι) as).destroyer.left = 0 := by
    have hthree : (rudpCreate : Lifetime ι).destroyer.left = 3 := rfl
    omega
  revert hzero
  cases (run lifetimeStep (rudpCreate : Lifetime ι) as).destroyer <;> decide

/-- `rudp_poll` in thread 0 calls `rudp_send` while `rudp_destroy` runs; a call of thread 1
    comes too late.  The last release is that of `rudp_poll`. -/
def nestedSend : List (LifetimeAction (Fin 2)) :=
  [.call 0, .step 0, .step 0, .step 0, .step 0, .call 0, .step 0, .step 0, .destroy, .call 1,
    .step 0, .step 0, .destroy, .step 1, .step 1, .step 0, .step 0, .step 0, .destroy, .step 0]

theorem context_lifetime_sample :
    (run lifetimeStep (rudpCreate : Lifetime (Fin 2)) nestedSend).finalRuns = 1 :=
  ((context_lifetime nestedSend).2 (by decide)).released (by unfold Lifetime.Released; decide)

end SoftEther.Accel
