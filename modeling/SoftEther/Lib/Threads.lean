import SoftEther.Lib.Table

namespace SoftEther.Lib

open scoped BigOperators

/-!
# Threads with call stacks

A pool of threads `ι`, each with a stack of frames `φ` of which the first is running.
A frame is whatever a call has to remember, its program counter included.

* `Pool.call`, `Pool.goto`, `Pool.ret` — a call, a step inside the running frame, a return;
* `Pool.Below` — what holds of the frames below the running ones;
* `Pool.count` — the number of frames, over all threads, that satisfy a predicate;
* `count_call`, `count_goto`, `count_ret` — what the three operations do to a count.

A shared counter that is meant to equal a count is then followed step by step.
-/

/-- The call stacks of the threads, the running frame first. -/
abbrev Pool (ι φ : Type*) := ι → List φ

namespace Pool

variable {ι φ : Type*}

/-- No thread is in a call. -/
def idle : Pool ι φ := fun _ => []

/-- The running frame of a thread. -/
def top (t : Pool ι φ) (i : ι) : Option φ := (t i).head?

section Operations

variable [DecidableEq ι]

/-- Thread `i` makes a call. -/
def call (t : Pool ι φ) (i : ι) (f : φ) : Pool ι φ := Function.update t i (f :: t i)

/-- The running frame of thread `i` becomes `f`. -/
def goto (t : Pool ι φ) (i : ι) (f : φ) : Pool ι φ := Function.update t i (f :: (t i).tail)

/-- The running frame of thread `i` returns. -/
def ret (t : Pool ι φ) (i : ι) : Pool ι φ := Function.update t i (t i).tail

end Operations

variable {t : Pool ι φ} {i : ι} {f : φ}

/-! ### Frames below the running one -/

/-- The frames below the running ones satisfy `p`. -/
def Below (t : Pool ι φ) (p : φ → Prop) : Prop := ∀ i, ∀ f ∈ (t i).tail, p f

section Below

variable [DecidableEq ι] {p : φ → Prop}

theorem Below.update (h : t.Below p) {l : List φ} (hl : ∀ g ∈ l.tail, p g) :
    Below (Function.update t i l) p := by
  intro j g hg
  by_cases hj : j = i
  · subst hj
    rw [Function.update_self] at hg
    exact hl g hg
  · rw [Function.update_of_ne hj] at hg
    exact h j g hg

/-- A call is made from a frame that may stand below another one. -/
theorem Below.call (h : t.Below p) (htop : ∀ g ∈ t.top i, p g) : (t.call i f).Below p := by
  refine h.update fun g hg => ?_
  have hi := h i g
  cases hstack : t i with
  | nil => simp [hstack] at hg
  | cons a l =>
    rcases List.mem_cons.mp (hstack ▸ hg) with rfl | hmem
    · exact htop _ (by simp [top, hstack])
    · exact hi (by simpa [hstack] using hmem)

theorem Below.goto (h : t.Below p) : (t.goto i f).Below p := h.update (h i)

theorem Below.ret (h : t.Below p) : (t.ret i).Below p :=
  h.update fun g hg => h i g (List.mem_of_mem_tail hg)

end Below

/-! ### Counting frames -/

/-- The stack of a running thread, counted. -/
theorem countP_of_top (htop : t.top i = some f) (p : φ → Bool) :
    (t i).countP p = (t i).tail.countP p + (p f).toNat := by
  have hstack : t i = f :: (t i).tail := (List.cons_head?_tail htop).symm
  rw [hstack]
  cases hf : p f <;> simp [hf]

variable [Fintype ι]

/-- The frames that satisfy `p`, over all threads. -/
def count (t : Pool ι φ) (p : φ → Bool) : ℕ := ∑ i, (t i).countP p

@[simp] theorem count_idle (p : φ → Bool) : count (idle : Pool ι φ) p = 0 := by
  simp [count, idle]

/-- A count is zero when no frame of any thread satisfies the predicate. -/
theorem count_eq_zero {p : φ → Bool} : t.count p = 0 ↔ ∀ i, ∀ f ∈ t i, p f = false := by
  simp [count, List.countP_eq_zero]

/-- The running frame is one of those that are counted. -/
theorem count_pos_of_top {p : φ → Bool} (htop : t.top i = some f) (hf : p f = true) :
    0 < t.count p := by
  rw [Nat.pos_iff_ne_zero]
  intro hzero
  have hfalse := count_eq_zero.mp hzero i f (List.mem_of_head? htop)
  rw [hf] at hfalse
  exact absurd hfalse (by simp)

variable [DecidableEq ι]

/-- **What replacing one stack does to a count.** -/
theorem count_update (t : Pool ι φ) (p : φ → Bool) (i : ι) (l : List φ) :
    count (Function.update t i l : Pool ι φ) p + (t i).countP p = t.count p + l.countP p :=
  weight_update (fun stack => stack.countP p) t i l

theorem count_call (t : Pool ι φ) (p : φ → Bool) (i : ι) (f : φ) :
    (t.call i f).count p = t.count p + (p f).toNat := by
  have h := count_update t p i (f :: t i)
  have hcons : (f :: t i).countP p = (t i).countP p + (p f).toNat := by
    cases hf : p f <;> simp [hf]
  change (t.call i f).count p + _ = _ at h
  omega

theorem count_goto (htop : t.top i = some f) (p : φ → Bool) (g : φ) :
    (t.goto i g).count p + (p f).toNat = t.count p + (p g).toNat := by
  have h := count_update t p i (g :: (t i).tail)
  have hold := countP_of_top htop p
  have hcons : (g :: (t i).tail).countP p = (t i).tail.countP p + (p g).toNat := by
    cases hg : p g <;> simp [hg]
  change (t.goto i g).count p + _ = _ at h
  omega

theorem count_ret (htop : t.top i = some f) (p : φ → Bool) :
    (t.ret i).count p + (p f).toNat = t.count p := by
  have h := count_update t p i (t i).tail
  have hold := countP_of_top htop p
  change (t.ret i).count p + _ = _ at h
  omega

end Pool

end SoftEther.Lib
