import Mathlib.Algebra.Order.Ring.Int
import Mathlib.Data.List.Nodup
import SoftEther.Lib.Transition

namespace SoftEther.AutoMode

open Lib

/-!
# The teardown waiter (`TunnelStateWatcher`)

One volatile slot holds the waiter for one teardown. `armTeardown` fills it, `disarmTeardown` and
`deliver` read it, compare and empty it; each of their reads and writes is a step of its own, and
the steps of any number of calls are interleaved.

* `TunnelStateWatcher`, `advance`, `step` — the slot, the calls under way, and what happens;
* `WaiterSafe` — one callback for each waiter, for its own attempt, and no newer waiter removed;
* `Timely` — nothing came between what a step rests on and the step;
* `waiterSafe_always` — the runs whose steps are timely.
-/

/-! ### The data -/

/-- `TeardownCompletion.Outcome` -/
inductive Outcome
  | NATIVE_CONFIRMED
  | NATIVE_UNRESOLVED
  | NOOP_REENTRANT
  | FOREIGN_STACK_TERMINAL
  deriving DecidableEq, Repr

structure TeardownCompletion where
  attemptId : ℤ
  sessionId : ℤ
  outcome : Outcome
  deriving DecidableEq, Repr

/-- `isSequenced`: a foreign stack numbers its completions by itself. -/
def TeardownCompletion.isSequenced (result : TeardownCompletion) : Bool :=
  result.outcome != .FOREIGN_STACK_TERMINAL

/-- `TeardownWaiter`. Its callback is named by the token. -/
structure TeardownWaiter where
  token : ℕ
  expectedAttemptId : ℤ
  deriving DecidableEq, Repr

/-- The calls of the three parties. -/
inductive Call
  | armTeardown (expectedAttemptId : ℤ)
  | disarmTeardown (token : ℕ)
  | deliver (result : TeardownCompletion)
  deriving DecidableEq, Repr

/-- Where a call is: the shared access that it makes next. -/
inductive Position
  /-- `armSeq.incrementAndGet()` -/
  | counting (expectedAttemptId : ℤ)
  /-- `armedTeardown = TeardownWaiter(..)` -/
  | storing (waiter : TeardownWaiter)
  /-- `val current = armedTeardown` -/
  | disarming (token : ℕ)
  /-- `armedTeardown = null` in `disarmTeardown` -/
  | clearing (token : ℕ)
  /-- `val waiter = armedTeardown` -/
  | delivering (result : TeardownCompletion)
  /-- The read of `lastTeardownAttemptId` -/
  | comparing (waiter : TeardownWaiter) (result : TeardownCompletion)
  /-- `lastTeardownAttemptId = result.attemptId` -/
  | marking (waiter : TeardownWaiter) (result : TeardownCompletion)
  /-- `armedTeardown = null` in `deliver` -/
  | emptying (waiter : TeardownWaiter) (result : TeardownCompletion)
  /-- `waiter.onResult(result)` -/
  | calling (waiter : TeardownWaiter) (result : TeardownCompletion)
  deriving DecidableEq, Repr

/-- Where a call begins. -/
def Call.entry : Call → Position
  | .armTeardown expectedAttemptId => .counting expectedAttemptId
  | .disarmTeardown token => .disarming token
  | .deliver result => .delivering result

/-- The watcher, the calls under way, and what has happened, the latest first. -/
structure TunnelStateWatcher where
  armedTeardown : Option TeardownWaiter := none
  lastTeardownAttemptId : ℤ := 0
  armSeq : ℕ := 0
  calls : ℕ → Option Position := fun _ => none
  /-- The waiters that were put into the slot. -/
  placed : List TeardownWaiter := []
  /-- The waiters that were taken out of it, each with the token it was emptied for. -/
  removed : List (ℕ × TeardownWaiter) := []
  /-- The waiters for which a completion has passed the checks of `deliver`. -/
  matched : List TeardownWaiter := []
  /-- The callbacks that have run. -/
  ran : List (TeardownWaiter × TeardownCompletion) := []

namespace TunnelStateWatcher

variable (s : TunnelStateWatcher) (i : ℕ)

/-- Call `i` goes on at `p`. -/
def goTo (p : Position) : TunnelStateWatcher :=
  { s with calls := Function.update s.calls i (some p) }

/-- Call `i` returns. -/
def ret : TunnelStateWatcher := { s with calls := Function.update s.calls i none }

/-- `armedTeardown = null`, for the waiter with this token. -/
def empty (token : ℕ) : TunnelStateWatcher :=
  { s with armedTeardown := none
           removed := (s.armedTeardown.toList.map fun v => (token, v)) ++ s.removed }

/-- The checks of `deliver` are passed. -/
def pass (waiter : TeardownWaiter) : TunnelStateWatcher :=
  { s with matched := waiter :: s.matched }

/-- The next shared access of call `i`, and what follows it up to the next one. -/
def advance : TunnelStateWatcher :=
  match s.calls i with
  | none => s
  | some (.counting expectedAttemptId) =>
    let token := s.armSeq + 1
    let s := { s with armSeq := token }
    if expectedAttemptId ≤ 0 then s.ret i else s.goTo i (.storing ⟨token, expectedAttemptId⟩)
  | some (.storing waiter) =>
    { s with armedTeardown := some waiter, placed := waiter :: s.placed }.ret i
  | some (.disarming token) =>
    if s.armedTeardown.any fun current => current.token = token then s.goTo i (.clearing token)
    else s.ret i
  | some (.clearing token) => (s.empty token).ret i
  | some (.delivering result) =>
    match s.armedTeardown with
    | none => s.ret i
    | some waiter =>
      if result.attemptId ≠ waiter.expectedAttemptId then s.ret i
      else if result.isSequenced then s.goTo i (.comparing waiter result)
      else (s.pass waiter).goTo i (.emptying waiter result)
  | some (.comparing waiter result) =>
    if result.attemptId ≤ s.lastTeardownAttemptId then s.ret i
    else (s.pass waiter).goTo i (.marking waiter result)
  | some (.marking waiter result) =>
    { s with lastTeardownAttemptId := result.attemptId }.goTo i (.emptying waiter result)
  | some (.emptying waiter result) => (s.empty waiter.token).goTo i (.calling waiter result)
  | some (.calling waiter result) => { s with ran := (waiter, result) :: s.ran }.ret i

end TunnelStateWatcher

/-- What can happen: a call is made, or a call under way makes its next access. -/
inductive WatcherAct
  | call (i : ℕ) (c : Call)
  | advance (i : ℕ)
  deriving DecidableEq, Repr

/-- One act. A call that is under way is not made again under the same number. -/
def watcherStep (s : TunnelStateWatcher) : WatcherAct → TunnelStateWatcher
  | .call i c => if (s.calls i).isNone then s.goTo i c.entry else s
  | .advance i => s.advance i

/-! ### What the waiters are promised -/

/-- `v` was armed after `w`. -/
def Newer (s : TunnelStateWatcher) (v w : TeardownWaiter) : Prop := [v, w].Sublist s.placed

/-- **What the waiters are promised.** -/
structure WaiterSafe (s : TunnelStateWatcher) : Prop where
  /-- A callback runs at most once. -/
  once : (s.ran.map fun x => x.1.token).Nodup
  /-- It runs for the completion of its own attempt, and for no other. -/
  own : ∀ x ∈ s.ran, x.2.attemptId = x.1.expectedAttemptId
  /-- What empties the slot for a waiter takes no newer one out. -/
  kept : ∀ x ∈ s.removed, ∀ w ∈ s.placed, w.token = x.1 → ¬ Newer s x.2 w

/-- `current` is the waiter with this token, or there is none. -/
def HoldsToken (current : Option TeardownWaiter) (token : ℕ) : Prop :=
  ∀ v ∈ current, v.token = token

/-- **Nothing came in between.** What empties the slot finds no other waiter there than the one
    it has read, and what passes the checks of `deliver` is the first to pass them for its
    waiter. -/
def Timely (s : TunnelStateWatcher) : WatcherAct → Prop
  | .call _ _ => True
  | .advance i =>
    match s.calls i with
    | some (.clearing token) => HoldsToken s.armedTeardown token
    | some (.emptying waiter _) => HoldsToken s.armedTeardown waiter.token
    | some (.delivering result) => ∀ waiter ∈ s.armedTeardown,
        result.attemptId = waiter.expectedAttemptId → result.isSequenced = false →
          waiter ∉ s.matched
    | some (.comparing waiter result) =>
      s.lastTeardownAttemptId < result.attemptId → waiter ∉ s.matched
    | _ => True

/-! ### The invariant -/

/-- What a call has to itself: a token that is in no slot yet, or a waiter that it will call. -/
def Position.owns : Position → Option ℕ
  | .storing w | .marking w _ | .emptying w _ | .calling w _ => some w.token
  | _ => none

/-- What is known where a call is. -/
def Position.Fits (s : TunnelStateWatcher) : Position → Prop
  | .storing w => w.token ≤ s.armSeq ∧ ∀ v ∈ s.placed, v.token ≠ w.token
  | .clearing token => ∃ w ∈ s.placed, w.token = token
  | .comparing w r => w ∈ s.placed ∧ r.attemptId = w.expectedAttemptId
  | .marking w r | .emptying w r | .calling w r =>
    w ∈ s.placed ∧ r.attemptId = w.expectedAttemptId ∧ w ∈ s.matched ∧
      ∀ x ∈ s.ran, x.1.token ≠ w.token
  | _ => True

/-- What the waiters' safety rests on. -/
structure WatcherInv (s : TunnelStateWatcher) : Prop where
  tokens : (s.placed.map TeardownWaiter.token).Nodup
  counted : ∀ w ∈ s.placed, w.token ≤ s.armSeq
  /-- The slot holds the waiter that was armed last. -/
  latest : ∀ w ∈ s.armedTeardown, s.placed.head? = some w
  removed : ∀ x ∈ s.removed, x.2 ∈ s.placed ∧ x.2.token = x.1
  matched : ∀ w ∈ s.matched, w ∈ s.placed
  ran : ∀ x ∈ s.ran, x.1 ∈ s.matched ∧ x.2.attemptId = x.1.expectedAttemptId
  once : (s.ran.map fun x => x.1.token).Nodup
  fits : ∀ i, ∀ p ∈ s.calls i, p.Fits s
  exclusive : ∀ i j, ∀ p ∈ s.calls i, ∀ q ∈ s.calls j, ∀ t, p.owns = some t → q.owns = some t →
    i = j

variable {s : TunnelStateWatcher}

theorem WatcherInv.current (h : WatcherInv s) {w : TeardownWaiter} (hw : w ∈ s.armedTeardown) :
    w ∈ s.placed :=
  List.mem_of_head? (h.latest w hw)

/-- Two waiters with one token are one. -/
theorem WatcherInv.eq_of_token (h : WatcherInv s) {v w : TeardownWaiter} (hv : v ∈ s.placed)
    (hw : w ∈ s.placed) (htoken : v.token = w.token) : v = w :=
  List.inj_on_of_nodup_map h.tokens hv hw htoken

/-- **The invariant is enough.** -/
theorem WatcherInv.safe (h : WatcherInv s) : WaiterSafe s where
  once := h.once
  own x hx := (h.ran x hx).2
  kept := by
    intro x hx w hw htoken hnewer
    obtain ⟨hmem, hx1⟩ := h.removed x hx
    have heq : x.2 = w := h.eq_of_token hmem hw (hx1.trans htoken.symm)
    rw [heq] at hnewer
    have hnodup := h.tokens.of_map.sublist hnewer
    simp at hnodup

/-! ### One step -/

section Step

variable {s : TunnelStateWatcher} {i : ℕ}

/-- What is known of the calls after one of them has moved. -/
theorem forall_calls {P : ℕ → Position → Prop} {o : Option Position}
    (hother : ∀ j, j ≠ i → ∀ p ∈ s.calls j, P j p) (hnew : ∀ p ∈ o, P i p) :
    ∀ j, ∀ p ∈ Function.update s.calls i o j, P j p := by
  intro j p hp
  by_cases hj : j = i
  · subst hj
    rw [Function.update_self] at hp
    exact hnew p hp
  · rw [Function.update_of_ne hj] at hp
    exact hother j hj p hp

/-- A call that comes to own what no other owns. -/
theorem WatcherInv.exclusive_update (h : WatcherInv s) {o : Option Position}
    (hnew : ∀ p ∈ o, ∀ t, p.owns = some t → ∀ j, j ≠ i → ∀ q ∈ s.calls j, q.owns ≠ some t) :
    ∀ k j, ∀ p ∈ Function.update s.calls i o k, ∀ q ∈ Function.update s.calls i o j, ∀ t,
      p.owns = some t → q.owns = some t → k = j := by
  intro k j p hp q hq t hpt hqt
  by_cases hk : k = i <;> by_cases hj : j = i
  · rw [hk, hj]
  · subst hk
    rw [Function.update_self] at hp
    rw [Function.update_of_ne hj] at hq
    exact absurd hqt (hnew p hp t hpt j hj q hq)
  · subst hj
    rw [Function.update_self] at hq
    rw [Function.update_of_ne hk] at hp
    exact absurd hpt (hnew q hq t hqt k hk p hp)
  · rw [Function.update_of_ne hk] at hp
    rw [Function.update_of_ne hj] at hq
    exact h.exclusive k j p hp q hq t hpt hqt

variable {p : Position} {w : TeardownWaiter}

/-- What call `i` owns, no other call does. -/
theorem WatcherInv.not_owns (h : WatcherInv s) (hp : s.calls i = some p) {t : ℕ}
    (hpt : p.owns = some t) : ∀ j, j ≠ i → ∀ q ∈ s.calls j, q.owns ≠ some t := by
  intro j hj q hq hqt
  exact hj (h.exclusive j i q hq p hp t hqt hpt)

/-- What is owned has been counted. -/
theorem WatcherInv.owns_le (h : WatcherInv s) (hp : p ∈ s.calls i) {t : ℕ} (hpt : p.owns = some t) :
    t ≤ s.armSeq := by
  have hfits := h.fits i p hp
  cases p with
  | storing w =>
    simp only [Position.owns, Option.some.injEq] at hpt
    rw [← hpt]
    exact hfits.1
  | marking w r | emptying w r | calling w r =>
    simp only [Position.owns, Option.some.injEq] at hpt
    rw [← hpt]
    exact h.counted w hfits.1
  | _ => simp [Position.owns] at hpt

/-- What is known of a call stays known when the lists grow by nothing that it owns. -/
theorem Position.Fits.of_le {s' : TunnelStateWatcher} (h : p.Fits s) (hseq : s.armSeq ≤ s'.armSeq)
    (hplaced : s.placed ⊆ s'.placed) (hmatched : s.matched ⊆ s'.matched)
    (hnew : ∀ t, p.owns = some t → (∀ v ∈ s'.placed, v ∈ s.placed ∨ v.token ≠ t) ∧
      ∀ x ∈ s'.ran, x ∈ s.ran ∨ x.1.token ≠ t) : p.Fits s' := by
  cases p with
  | storing w =>
    obtain ⟨hle, hfresh⟩ := h
    refine ⟨hle.trans hseq, ?_⟩
    intro v hv
    rcases (hnew w.token rfl).1 v hv with hold | hne
    · exact hfresh v hold
    · exact hne
  | clearing token =>
    obtain ⟨w, hw, htoken⟩ := h
    exact ⟨w, hplaced hw, htoken⟩
  | comparing w r => exact ⟨hplaced h.1, h.2⟩
  | marking w r | emptying w r | calling w r =>
    obtain ⟨hw, hid, hm, hran⟩ := h
    refine ⟨hplaced hw, hid, hmatched hm, ?_⟩
    intro x hx
    rcases (hnew w.token rfl).2 x hx with hold | hne
    · exact hran x hold
    · exact hne
  | _ => trivial

theorem Position.Fits.frame {s' : TunnelStateWatcher} (h : p.Fits s) (hseq : s'.armSeq = s.armSeq)
    (hplaced : s'.placed = s.placed) (hmatched : s'.matched = s.matched) (hran : s'.ran = s.ran) :
    p.Fits s' := by
  apply h.of_le hseq.ge
  · rw [hplaced]
    exact List.Subset.refl _
  · rw [hmatched]
    exact List.Subset.refl _
  · intro t _
    exact ⟨fun v hv => .inl (hplaced ▸ hv), fun x hx => .inl (hran ▸ hx)⟩

theorem WatcherInv.goTo (h : WatcherInv s) (hfits : p.Fits s)
    (howns : ∀ t, p.owns = some t → ∀ j, j ≠ i → ∀ q ∈ s.calls j, q.owns ≠ some t) :
    WatcherInv (s.goTo i p) :=
  { h with
    fits := by
      apply forall_calls (P := fun _ q => q.Fits (s.goTo i p))
      · intro j _ q hq
        exact (h.fits j q hq).frame rfl rfl rfl rfl
      · intro q hq
        rw [Option.mem_some_iff.mp hq] at hfits
        exact hfits.frame rfl rfl rfl rfl
    exclusive := by
      apply h.exclusive_update
      intro q hq
      rw [← Option.mem_some_iff.mp hq]
      exact howns }

theorem WatcherInv.ret (h : WatcherInv s) : WatcherInv (s.ret i) :=
  { h with
    fits := by
      apply forall_calls (P := fun _ q => q.Fits (s.ret i))
      · intro j _ q hq
        exact (h.fits j q hq).frame rfl rfl rfl rfl
      · intro q hq
        cases hq
    exclusive := by
      apply h.exclusive_update
      intro q hq
      cases hq }

/-! ### The accesses -/

/-- `incrementAndGet` -/
theorem WatcherInv.counting (h : WatcherInv s) :
    WatcherInv { s with armSeq := s.armSeq + 1 } :=
  { h with
    counted := fun w hw => (h.counted w hw).trans (Nat.le_succ _)
    fits := by
      intro j q hq
      refine Position.Fits.of_le (h.fits j q hq) (Nat.le_succ _) (List.Subset.refl _)
        (List.Subset.refl _) ?_
      exact fun _ _ => ⟨fun _ hv => .inl hv, fun _ hx => .inl hx⟩ }

/-- The new waiter is put into the slot. -/
theorem WatcherInv.storing (h : WatcherInv s) (hcall : s.calls i = some (.storing w)) :
    WatcherInv ({ s with armedTeardown := some w, placed := w :: s.placed }.ret i) := by
  obtain ⟨hle, hfresh⟩ := h.fits i _ hcall
  have halone := h.not_owns hcall (t := w.token) rfl
  exact
  { tokens := by
      show ((w :: s.placed).map TeardownWaiter.token).Nodup
      rw [List.map_cons, List.nodup_cons]
      refine ⟨?_, h.tokens⟩
      intro hmem
      obtain ⟨v, hv, htoken⟩ := List.mem_map.mp hmem
      exact hfresh v hv htoken
    counted := by
      intro v hv
      rcases List.mem_cons.mp hv with rfl | hv
      · exact hle
      · exact h.counted v hv
    latest := by
      intro v hv
      rw [← Option.mem_some_iff.mp hv]
      rfl
    removed := fun x hx => ⟨List.mem_cons_of_mem _ (h.removed x hx).1, (h.removed x hx).2⟩
    matched := fun v hv => List.mem_cons_of_mem _ (h.matched v hv)
    ran := h.ran
    once := h.once
    fits := by
      apply forall_calls (P := fun _ q => q.Fits _)
      · intro j hj q hq
        refine Position.Fits.of_le (h.fits j q hq) le_rfl (List.subset_cons_self _ _)
          (List.Subset.refl _) ?_
        intro t ht
        refine ⟨?_, fun _ hx => .inl hx⟩
        intro v hv
        rcases List.mem_cons.mp hv with rfl | hv
        · right
          intro heq
          exact halone j hj q hq (heq ▸ ht)
        · exact .inl hv
      · intro q hq
        cases hq
    exclusive := h.ret.exclusive }

/-- A timely emptying of the slot. -/
theorem WatcherInv.empty (h : WatcherInv s) {token : ℕ}
    (htimely : HoldsToken s.armedTeardown token) : WatcherInv (s.empty token) :=
  { h with
    latest := by
      intro w hw
      cases hw
    removed := by
      intro x hx
      rcases List.mem_append.mp hx with hx | hx
      · obtain ⟨v, hv, rfl⟩ := List.mem_map.mp hx
        have hslot : v ∈ s.armedTeardown := by simpa using hv
        exact ⟨h.current hslot, htimely v hslot⟩
      · exact h.removed x hx
    fits := fun j q hq => (h.fits j q hq).frame rfl rfl rfl rfl }

/-- A delivery that is the first to pass the checks for its waiter. -/
theorem WatcherInv.pass (h : WatcherInv s) (hw : w ∈ s.placed) : WatcherInv (s.pass w) :=
  { h with
    matched := by
      intro v hv
      rcases List.mem_cons.mp hv with rfl | hv
      · exact hw
      · exact h.matched v hv
    ran := fun x hx => ⟨List.mem_cons_of_mem _ (h.ran x hx).1, (h.ran x hx).2⟩
    fits := by
      intro j q hq
      refine Position.Fits.of_le (h.fits j q hq) le_rfl (List.Subset.refl _)
        (List.subset_cons_self _ _) ?_
      exact fun _ _ => ⟨fun _ hv => .inl hv, fun _ hx => .inl hx⟩ }

/-- No call is committed to a waiter that no completion has been matched to, and none has run. -/
theorem WatcherInv.pass_fits (h : WatcherInv s) {r : TeardownCompletion} (hw : w ∈ s.placed)
    (hid : r.attemptId = w.expectedAttemptId) (hfirst : w ∉ s.matched) :
    (Position.emptying w r).Fits (s.pass w) ∧ (Position.marking w r).Fits (s.pass w) ∧
      ∀ j, ∀ q ∈ s.calls j, q.owns ≠ some w.token := by
  have hran : ∀ x ∈ s.ran, x.1.token ≠ w.token := by
    intro x hx htoken
    have hmatched := (h.ran x hx).1
    exact hfirst (h.eq_of_token (h.matched _ hmatched) hw htoken ▸ hmatched)
  refine ⟨⟨hw, hid, List.mem_cons_self, hran⟩, ⟨hw, hid, List.mem_cons_self, hran⟩, ?_⟩
  intro j q hq howns
  have hfits := h.fits j q hq
  cases q with
  | storing v =>
    simp only [Position.owns, Option.some.injEq] at howns
    exact hfits.2 w hw howns.symm
  | marking v r | emptying v r | calling v r =>
    simp only [Position.owns, Option.some.injEq] at howns
    exact hfirst (h.eq_of_token hfits.1 hw howns ▸ hfits.2.2.1)
  | _ => simp [Position.owns] at howns

/-- The callback. -/
theorem WatcherInv.calling (h : WatcherInv s) {r : TeardownCompletion}
    (hcall : s.calls i = some (.calling w r)) :
    WatcherInv ({ s with ran := (w, r) :: s.ran }.ret i) := by
  obtain ⟨_, hid, hmatched, hran⟩ := h.fits i _ hcall
  have halone := h.not_owns hcall (t := w.token) rfl
  exact
  { h with
    ran := by
      intro x hx
      rcases List.mem_cons.mp hx with rfl | hx
      · exact ⟨hmatched, hid⟩
      · exact h.ran x hx
    once := by
      show (((w, r) :: s.ran).map fun x => x.1.token).Nodup
      rw [List.map_cons, List.nodup_cons]
      refine ⟨?_, h.once⟩
      intro hmem
      obtain ⟨x, hx, htoken⟩ := List.mem_map.mp hmem
      exact hran x hx htoken
    fits := by
      apply forall_calls (P := fun _ q => q.Fits _)
      · intro j hj q hq
        refine Position.Fits.of_le (h.fits j q hq) le_rfl (List.Subset.refl _)
          (List.Subset.refl _) ?_
        intro t ht
        refine ⟨fun _ hv => .inl hv, ?_⟩
        intro x hx
        rcases List.mem_cons.mp hx with rfl | hx
        · right
          intro heq
          exact halone j hj q hq (heq ▸ ht)
        · exact .inl hx
      · intro q hq
        cases hq
    exclusive := h.ret.exclusive }

end Step

/-! ### Runs -/

theorem watcherInv_init : WatcherInv {} where
  tokens := List.nodup_nil
  counted := by simp
  latest := by simp
  removed := by simp
  matched := by simp
  ran := by simp
  once := List.nodup_nil
  fits := by simp
  exclusive := by simp

/-- **A timely access keeps the invariant.** -/
theorem WatcherInv.advance (h : WatcherInv s) {i : ℕ} (htimely : Timely s (.advance i)) :
    WatcherInv (s.advance i) := by
  unfold TunnelStateWatcher.advance
  rcases hcall : s.calls i with _ | p
  · exact h
  simp only [Timely, hcall] at htimely
  -- a write that empties the slot or passes a completion has to be timely
  cases p with
  | counting expectedAttemptId =>
    by_cases hid : expectedAttemptId ≤ 0
    · simp only [hid, if_true]
      exact h.counting.ret
    · simp only [hid, if_false]
      apply h.counting.goTo
      · refine ⟨le_rfl, ?_⟩
        intro v hv htoken
        have hle : v.token ≤ s.armSeq := h.counted v hv
        have heq : v.token = s.armSeq + 1 := htoken
        omega
      · intro t ht j _ q hq hqt
        have hle : t ≤ s.armSeq := h.owns_le hq hqt
        have heq : s.armSeq + 1 = t := Option.some.inj ht
        omega
  | storing w => exact h.storing hcall
  | disarming token =>
    rcases hslot : s.armedTeardown with _ | w
    · exact h.ret
    by_cases htoken : w.token = token
    · simp only [Option.any_some, htoken, decide_true, if_true]
      refine h.goTo (p := .clearing token) ⟨w, h.current hslot, htoken⟩ ?_
      intro t ht
      cases ht
    · simp only [Option.any_some, htoken, decide_false]
      exact h.ret
  | clearing token => exact (h.empty htimely).ret
  | delivering r =>
    rcases hslot : s.armedTeardown with _ | w
    · exact h.ret
    have hw : w ∈ s.placed := h.current hslot
    by_cases hid : r.attemptId = w.expectedAttemptId
    · by_cases hseq : r.isSequenced = true
      · simp only [hid, hseq, ne_eq, not_true_eq_false, if_false, if_true]
        refine h.goTo (p := .comparing w r) ⟨hw, hid⟩ ?_
        intro t ht
        cases ht
      · have hfirst : w ∉ s.matched := htimely w hslot hid (by simpa using hseq)
        obtain ⟨hfits, _, howns⟩ := h.pass_fits hw hid hfirst
        simp only [hid, hseq, ne_eq, not_true_eq_false, if_false]
        apply (h.pass hw).goTo hfits
        intro t ht j _ q hq
        rw [← Option.some.inj ht]
        exact howns j q hq
    · simp only [ne_eq, hid, not_false_eq_true, if_true]
      exact h.ret
  | comparing w r =>
    by_cases hmark : r.attemptId ≤ s.lastTeardownAttemptId
    · simp only [hmark, if_true]
      exact h.ret
    · obtain ⟨hw, hid⟩ := h.fits i _ hcall
      obtain ⟨_, hfits, howns⟩ := h.pass_fits hw hid (htimely (by omega))
      simp only [hmark, if_false]
      apply (h.pass hw).goTo hfits
      intro t ht j _ q hq
      rw [← Option.some.inj ht]
      exact howns j q hq
  | marking w r =>
    have hmarked : WatcherInv { s with lastTeardownAttemptId := r.attemptId } :=
      { h with fits := fun j q hq => (h.fits j q hq).frame rfl rfl rfl rfl }
    exact hmarked.goTo (h.fits i _ hcall) fun t ht => h.not_owns hcall ht
  | emptying w r =>
    exact (h.empty htimely).goTo (h.fits i _ hcall) fun t ht => h.not_owns hcall ht
  | calling w r => exact h.calling hcall

theorem WatcherInv.step (h : WatcherInv s) {a : WatcherAct} (htimely : Timely s a) :
    WatcherInv (watcherStep s a) := by
  cases a with
  | call i c =>
    by_cases hidle : (s.calls i).isNone = true
    · simp only [watcherStep, hidle, if_true]
      cases c <;> exact h.goTo trivial fun t ht => by cases ht
    · simp only [watcherStep, hidle]
      exact h
  | advance i => exact h.advance htimely

/-! ### The whole run -/

/-- **What the waiters are promised holds at every point of a timely run.** -/
theorem waiterSafe_always {as : List WatcherAct} (h : Along watcherStep Timely {} as) :
    Always watcherStep WaiterSafe {} as :=
  always_of_along (fun _ _ hinv htimely => hinv.step htimely) (fun _ hinv => hinv.safe) h
    watcherInv_init

/-- Two waiters and their completions. The second is armed while the first completion is delivered,
    a completion of a third attempt comes, and the first waiter is disarmed too late. -/
def interleaved : List WatcherAct :=
  [.call 0 (.armTeardown 7), .advance 0, .call 1 (.deliver ⟨7, 1, .NATIVE_CONFIRMED⟩), .advance 0,
   .call 2 (.deliver ⟨9, 1, .NATIVE_CONFIRMED⟩), .advance 2, .advance 1, .call 3 (.armTeardown 8),
   .advance 3, .advance 1, .advance 1, .advance 1, .advance 3, .advance 1,
   .call 4 (.disarmTeardown 1), .advance 4, .call 5 (.deliver ⟨8, 2, .NATIVE_UNRESOLVED⟩),
   .advance 5, .advance 5, .advance 5, .advance 5, .advance 5]

theorem waiterSafe_interleaved :
    (run watcherStep {} interleaved).ran =
        [(⟨2, 8⟩, ⟨8, 2, .NATIVE_UNRESOLVED⟩), (⟨1, 7⟩, ⟨7, 1, .NATIVE_CONFIRMED⟩)] ∧
      Always watcherStep WaiterSafe {} interleaved :=
  ⟨by decide, waiterSafe_always (by simp [interleaved, Along, Timely, watcherStep,
    TunnelStateWatcher.advance, TunnelStateWatcher.goTo, TunnelStateWatcher.ret,
    TunnelStateWatcher.empty, TunnelStateWatcher.pass, Call.entry, HoldsToken,
    TeardownCompletion.isSequenced])⟩

/-- A waiter is armed between the check of a delivery and the emptying that follows it. -/
def overtaken : List WatcherAct :=
  [.call 0 (.armTeardown 7), .advance 0, .advance 0, .call 1 (.deliver ⟨7, 1, .NATIVE_CONFIRMED⟩),
   .advance 1, .advance 1, .advance 1, .call 2 (.armTeardown 8), .advance 2, .advance 2, .advance 1]

theorem waiter_overtaken : ¬ Always watcherStep WaiterSafe {} overtaken := by
  intro h
  have hsafe := always_iff.mp h overtaken (List.prefix_refl _)
  exact hsafe.kept (1, ⟨2, 8⟩) (by decide) ⟨1, 7⟩ (by decide) rfl
    (show [_, _].Sublist (run watcherStep {} overtaken).placed by decide)

end SoftEther.AutoMode
