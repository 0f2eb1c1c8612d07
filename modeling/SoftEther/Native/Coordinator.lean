import SoftEther.Lib.EventLog
import SoftEther.Native.HandleSlot

namespace SoftEther.Native

open Lib

/-!
# One attempt's native connection

`NativeAttemptCoordinator` decides who destroys the native connection of one attempt.  A
connect registers a `Flow` before it enters native code and leaves it at its end; a teardown
interrupts the flow it finds, waits for it, and cleans up unless another thread already does.

* `Flow`, `TeardownOutcome` — the coordinator's own types;
* `Pc`, `CleanupPc` — where a thread stands between two steps of `requestTeardown`, `exit` and
  `runCleanup`, or of the controller's inline `claimAndDestroyNativeHandle`;
* `Coordinator` — the fields, the flows that were begun, the handle slot and the threads;
* `Event` — the calls that leave the coordinator, and what its callers see of it;
* `Action`, `Coordinator.step` — one atomic step of one thread.

A step is atomic when the code holds the lock over it, or when it is one read, one write or
one call.  What the outside decides is the `Answer` of a step: whether a bounded wait is over,
and whether a call or a wait threw.  The reason strings that only `describe` reads are left out.
-/

/-! ### Types -/

/-- A flow that was begun: the handle it published and its exit latch. -/
structure Flow where
  handle : Handle := 0
  exited : Bool := false

inductive TeardownOutcome
  | confirmed
  | alreadyConfirmed
  | unresolved
  deriving DecidableEq, Repr

def TeardownOutcome.isCleanupConfirmed (outcome : TeardownOutcome) : Bool :=
  outcome = .confirmed || outcome = .alreadyConfirmed

/-- Where the cleanup owner stands in `runCleanup`. -/
inductive CleanupPc
  /-- before `handles.claimHandle()` -/
  | claimHandle
  /-- before `destroyNative(handle)` -/
  | destroy (handle : Handle)
  /-- inside `destroyNative(handle)` -/
  | destroying (handle : Handle)
  /-- before `releaseLease()` -/
  | release
  /-- before the block that writes `cleanupConfirmed` -/
  | record (confirmed : Bool)
  /-- before `cleanupDone.countDown()` -/
  | countDown
  deriving DecidableEq, Repr

/-- Where a thread stands. -/
inductive Pc
  /-- in no method of the coordinator -/
  | outside
  /-- `requestTeardown` set its flags and took this snapshot of `activeFlow` -/
  | snapshot (flow : Option ℕ)
  /-- before `interruptNative(handle)` -/
  | interrupt (flow : ℕ) (handle : Handle)
  /-- in `flow.awaitExit` -/
  | awaitExit (flow : ℕ)
  /-- before `claimCleanupLocked` -/
  | claimCleanup
  /-- in `cleanupDone.await`, another thread being the owner -/
  | awaitCleanup
  /-- in `runCleanup`, called by `requestTeardown` or by `exit` -/
  | cleanup (byTeardown : Bool) (pc : CleanupPc)
  /-- before the outcome is read off `cleanupConfirmed` -/
  | report (owner : Bool)
  /-- in the inline `nativeDestroy` of a handle claimed outside the coordinator -/
  | inlineDestroy (handle : Handle)
  deriving DecidableEq, Repr

/-- What the environment answers to one step. -/
structure Answer where
  expired : Bool := false
  threw : Bool := false

/-- What others see of a coordinator. -/
inductive Event
  | flowBegan (flow : ℕ)
  | flowExited (flow : ℕ)
  | teardownRequested
  | interruptNative (handle : Handle)
  | nothingOutstanding
  | destroyNative (handle : Handle)
  | destroyReturned (handle : Handle)
  | releaseLease
  | returned (outcome : TeardownOutcome)
  deriving DecidableEq, Repr

/-- The fields of the coordinator, and where its threads are. -/
structure Coordinator where
  destroyed : Bool := false
  teardownRequested : Bool := false
  activeFlow : Option ℕ := none
  cleanupClaimed : Bool := false
  cleanupFinished : Bool := false
  cleanupConfirmed : Bool := false
  cleanupDone : Bool := false
  flows : ℕ → Flow := fun _ => {}
  begun : ℕ := 0
  handles : NativeHandleSlot := {}
  pcs : ℕ → Pc := fun _ => .outside

namespace Coordinator

/-- Thread `t` goes on at `pc`. -/
def goto (s : Coordinator) (t : ℕ) (pc : Pc) : Coordinator :=
  { s with pcs := Function.update s.pcs t pc }

@[simp] theorem goto_pcs_self (s : Coordinator) (t : ℕ) (pc : Pc) : (s.goto t pc).pcs t = pc := by
  simp only [goto, Function.update_self]

theorem goto_pcs_of_ne (s : Coordinator) {t u : ℕ} (h : u ≠ t) (pc : Pc) :
    (s.goto t pc).pcs u = s.pcs u := by
  simp only [goto, Function.update_of_ne h]

/-! ### The blocks under the lock -/

/-- `beginFlow`. -/
def beginFlow (s : Coordinator) : Coordinator × Option Event :=
  if s.destroyed then (s, none)
  else
    ({ s with
        activeFlow := some s.begun
        begun := s.begun + 1
        flows := Function.update s.flows s.begun {} },
      some (.flowBegan s.begun))

/-- `claimCleanupLocked`. -/
def claimCleanupLocked (s : Coordinator) : Coordinator × Bool :=
  if s.cleanupClaimed then (s, false) else ({ s with cleanupClaimed := true }, true)

/-- The flow counts its latch down and gives up the flow slot if it is still its own. -/
def leave (s : Coordinator) (flow : ℕ) : Coordinator :=
  { s with
    flows := Function.update s.flows flow { s.flows flow with exited := true }
    activeFlow := if s.activeFlow = some flow then none else s.activeFlow }

/-- The block of `exit`, run once by the thread of each flow. -/
def exit (s : Coordinator) (t flow : ℕ) : Coordinator × Option Event :=
  if s.pcs t = .outside ∧ flow < s.begun ∧ (s.flows flow).exited = false then
    if s.teardownRequested then
      if (s.leave flow).claimCleanupLocked.2 then
        ((s.leave flow).claimCleanupLocked.1.goto t (.cleanup false .claimHandle),
          some (.flowExited flow))
      else ((s.leave flow).claimCleanupLocked.1, some (.flowExited flow))
    else (s.leave flow, some (.flowExited flow))
  else (s, none)

/-- The first block of `requestTeardown`. -/
def requestTeardown (s : Coordinator) (t : ℕ) : Coordinator × Option Event :=
  if s.pcs t = .outside then
    ({ s with destroyed := true, teardownRequested := true }.goto t (.snapshot s.activeFlow),
      some .teardownRequested)
  else (s, none)

/-! ### The steps between the blocks -/

/-- One step of the cleanup owner. -/
def runCleanup (s : Coordinator) (t : ℕ) (byTeardown : Bool) (answer : Answer) :
    CleanupPc → Coordinator × Option Event
  | .claimHandle =>
    if answer.threw then (s.goto t .outside, none)
    else if s.handles.claimReady answer.expired then
      match s.handles.claimHandle with
      | (handles, .nothingOutstanding) =>
        ({ s with handles := handles }.goto t (.cleanup byTeardown .release),
          some .nothingOutstanding)
      | (handles, .claimed handle) =>
        ({ s with handles := handles }.goto t (.cleanup byTeardown (.destroy handle)), none)
      | (handles, .lost) =>
        ({ s with handles := handles }.goto t (.cleanup byTeardown (.record false)), none)
    else (s, none)
  | .destroy handle =>
    (s.goto t (.cleanup byTeardown (.destroying handle)), some (.destroyNative handle))
  | .destroying handle =>
    if answer.threw then
      ({ s with handles := s.handles.settleLost }.goto t (.cleanup byTeardown (.record false)),
        none)
    else
      ({ s with handles := s.handles.settleDestroyed }.goto t (.cleanup byTeardown .release),
        some (.destroyReturned handle))
  | .release => (s.goto t (.cleanup byTeardown (.record true)), some .releaseLease)
  | .record confirmed =>
    ({ s with cleanupConfirmed := confirmed, cleanupFinished := true }.goto t
      (.cleanup byTeardown .countDown), none)
  | .countDown =>
    ({ s with cleanupDone := true }.goto t (if byTeardown then .report true else .outside), none)

/-- The outcome that `requestTeardown` returns once the cleanup is done. -/
def outcome (s : Coordinator) (owner : Bool) : TeardownOutcome :=
  if s.cleanupConfirmed then if owner then .confirmed else .alreadyConfirmed else .unresolved

/-- Thread `t` takes its next step. -/
def advance (s : Coordinator) (t : ℕ) (answer : Answer) : Coordinator × Option Event :=
  match s.pcs t with
  | .outside => (s, none)
  | .snapshot none => (s.goto t .claimCleanup, none)
  | .snapshot (some flow) =>
    if (s.flows flow).handle ≠ 0 then (s.goto t (.interrupt flow (s.flows flow).handle), none)
    else (s.goto t (.awaitExit flow), none)
  | .interrupt flow handle =>
    -- An `Exception` of the call is caught, an `Error` is not.
    (s.goto t (if answer.threw then .outside else .awaitExit flow), some (.interruptNative handle))
  | .awaitExit flow =>
    if answer.threw then (s.goto t .outside, none)
    else if (s.flows flow).exited then (s.goto t .claimCleanup, none)
    else if answer.expired then (s.goto t .outside, some (.returned .unresolved))
    else (s, none)
  | .claimCleanup =>
    if s.claimCleanupLocked.2 then
      (s.claimCleanupLocked.1.goto t (.cleanup true .claimHandle), none)
    else (s.claimCleanupLocked.1.goto t .awaitCleanup, none)
  | .awaitCleanup =>
    if answer.threw then (s.goto t .outside, none)
    else if s.cleanupDone then (s.goto t (.report false), none)
    else if answer.expired then (s.goto t .outside, some (.returned .unresolved))
    else (s, none)
  | .cleanup byTeardown pc => s.runCleanup t byTeardown answer pc
  | .report owner => (s.goto t .outside, some (.returned (s.outcome owner)))
  | .inlineDestroy _ =>
    if answer.threw then ({ s with handles := s.handles.settleLost }.goto t .outside, none)
    else ({ s with handles := s.handles.settleDestroyed }.goto t .outside, none)

/-- `claimAndDestroyNativeHandle`: the claim; the destroy is the thread's next step. -/
def claimAndDestroyNativeHandle (s : Coordinator) (t : ℕ) (answer : Answer) :
    Coordinator × Option Event :=
  if s.pcs t = .outside ∧ s.handles.claimReady answer.expired then
    match s.handles.claimHandle with
    | (handles, .claimed handle) =>
      ({ s with handles := handles }.goto t (.inlineDestroy handle), none)
    | (handles, _) => ({ s with handles := handles }, none)
  else (s, none)

end Coordinator

/-! ### Steps -/

/-- The calls, and a step of a thread. -/
inductive Action
  | beginFlow
  | publishHandle (flow : ℕ) (handle : Handle)
  | publish (handle : Handle)
  | exit (thread flow : ℕ)
  | requestTeardown (thread : ℕ)
  | claimAndDestroyNativeHandle (thread : ℕ) (answer : Answer)
  | advance (thread : ℕ) (answer : Answer)

/-- One step, with the event it emits. -/
def Coordinator.step (s : Coordinator) : Action → Coordinator × Option Event
  | .beginFlow => s.beginFlow
  | .publishHandle flow handle =>
    ({ s with flows := Function.update s.flows flow { s.flows flow with handle := handle } }, none)
  | .publish handle => ({ s with handles := (s.handles.publish handle).1 }, none)
  | .exit t flow => s.exit t flow
  | .requestTeardown t => s.requestTeardown t
  | .claimAndDestroyNativeHandle t answer => s.claimAndDestroyNativeHandle t answer
  | .advance t answer => s.advance t answer

/-! ### What a thread's next step can do -/

/-- The thread is in a bounded wait. -/
def Pc.waits : Pc → Bool
  | .awaitExit _ => true
  | .awaitCleanup => true
  | .cleanup _ .claimHandle => true
  | _ => false

namespace Coordinator

/-- Thread `t` stands at the given place; its step leads to that state and emits that event. -/
inductive Advance (s : Coordinator) (t : ℕ) : Pc → Coordinator → Option Event → Prop
  | stay (pc : Pc) : Advance s t pc s none
  | noFlow : Advance s t (.snapshot none) (s.goto t .claimCleanup) none
  | readHandle (flow : ℕ) :
      Advance s t (.snapshot (some flow)) (s.goto t (.interrupt flow (s.flows flow).handle)) none
  | noHandle (flow : ℕ) : Advance s t (.snapshot (some flow)) (s.goto t (.awaitExit flow)) none
  | interrupt (flow : ℕ) (handle : Handle) (pc : Pc) (hpc : pc = .outside ∨ pc = .awaitExit flow) :
      Advance s t (.interrupt flow handle) (s.goto t pc) (some (.interruptNative handle))
  | flowExited (flow : ℕ) (hexited : (s.flows flow).exited = true) :
      Advance s t (.awaitExit flow) (s.goto t .claimCleanup) none
  | gaveUp (pc : Pc) (e : Option Event) (hpc : pc.waits = true)
      (he : e = none ∨ e = some (.returned .unresolved)) : Advance s t pc (s.goto t .outside) e
  | claims (hclaimed : s.cleanupClaimed = false) :
      Advance s t .claimCleanup
        ({ s with cleanupClaimed := true }.goto t (.cleanup true .claimHandle)) none
  | refused : Advance s t .claimCleanup (s.goto t .awaitCleanup) none
  | cleanedUp : Advance s t .awaitCleanup (s.goto t (.report false)) none
  | nothing (byTeardown : Bool) (handles : NativeHandleSlot) :
      Advance s t (.cleanup byTeardown .claimHandle)
        ({ s with handles := handles }.goto t (.cleanup byTeardown .release))
        (some .nothingOutstanding)
  | takes (byTeardown : Bool) (handles : NativeHandleSlot) (handle : Handle) :
      Advance s t (.cleanup byTeardown .claimHandle)
        ({ s with handles := handles }.goto t (.cleanup byTeardown (.destroy handle))) none
  | lost (byTeardown : Bool) (handles : NativeHandleSlot) :
      Advance s t (.cleanup byTeardown .claimHandle)
        ({ s with handles := handles }.goto t (.cleanup byTeardown (.record false))) none
  | destroy (byTeardown : Bool) (handle : Handle) :
      Advance s t (.cleanup byTeardown (.destroy handle))
        (s.goto t (.cleanup byTeardown (.destroying handle))) (some (.destroyNative handle))
  | destroyThrew (byTeardown : Bool) (handles : NativeHandleSlot) (handle : Handle) :
      Advance s t (.cleanup byTeardown (.destroying handle))
        ({ s with handles := handles }.goto t (.cleanup byTeardown (.record false))) none
  | destroyReturned (byTeardown : Bool) (handles : NativeHandleSlot) (handle : Handle) :
      Advance s t (.cleanup byTeardown (.destroying handle))
        ({ s with handles := handles }.goto t (.cleanup byTeardown .release))
        (some (.destroyReturned handle))
  | release (byTeardown : Bool) :
      Advance s t (.cleanup byTeardown .release) (s.goto t (.cleanup byTeardown (.record true)))
        (some .releaseLease)
  | record (byTeardown confirmed : Bool) :
      Advance s t (.cleanup byTeardown (.record confirmed))
        ({ s with cleanupConfirmed := confirmed, cleanupFinished := true }.goto t
          (.cleanup byTeardown .countDown)) none
  | countDown (byTeardown : Bool) (pc : Pc) (hpc : pc = .outside ∨ pc = .report true) :
      Advance s t (.cleanup byTeardown .countDown) ({ s with cleanupDone := true }.goto t pc) none
  | report (owner : Bool) :
      Advance s t (.report owner) (s.goto t .outside) (some (.returned (s.outcome owner)))
  | inlineDestroyed (handle : Handle) (handles : NativeHandleSlot) :
      Advance s t (.inlineDestroy handle) ({ s with handles := handles }.goto t .outside) none

variable {s : Coordinator} {t : ℕ}

theorem runCleanup_effect (byTeardown : Bool) (answer : Answer) (pc : CleanupPc) :
    Advance s t (.cleanup byTeardown pc) (s.runCleanup t byTeardown answer pc).1
      (s.runCleanup t byTeardown answer pc).2 := by
  cases pc with
  | claimHandle =>
    simp only [runCleanup]
    split_ifs
    · exact .gaveUp _ _ rfl (.inl rfl)
    · split
      · exact .nothing _ _
      · exact .takes _ _ _
      · exact .lost _ _
    · exact .stay _
  | destroy handle => exact .destroy _ _
  | destroying handle =>
    simp only [runCleanup]
    split_ifs
    · exact .destroyThrew _ _ _
    · exact .destroyReturned _ _ _
  | release => exact .release _
  | record confirmed => exact .record _ _
  | countDown =>
    refine .countDown _ _ ?_
    cases byTeardown with
    | true => exact .inr rfl
    | false => exact .inl rfl

/-- **What a thread's next step can do.** -/
theorem advance_effect (s : Coordinator) (t : ℕ) (answer : Answer) :
    Advance s t (s.pcs t) (s.advance t answer).1 (s.advance t answer).2 := by
  unfold advance
  -- one constructor of `Advance` for each outcome of a place
  cases s.pcs t with
  | outside => exact .stay _
  | snapshot flow =>
    cases flow with
    | none => exact .noFlow
    | some flow =>
      simp only
      split_ifs
      · exact .readHandle _
      · exact .noHandle _
  | interrupt flow handle =>
    refine .interrupt _ _ _ ?_
    split_ifs
    · exact .inl rfl
    · exact .inr rfl
  | awaitExit flow =>
    simp only
    split_ifs with hthrew hexited hexpired
    · exact .gaveUp _ _ rfl (.inl rfl)
    · exact .flowExited _ hexited
    · exact .gaveUp _ _ rfl (.inr rfl)
    · exact .stay _
  | claimCleanup =>
    cases hclaimed : s.cleanupClaimed with
    | true =>
      simp only [claimCleanupLocked, hclaimed, if_true, Bool.false_eq_true, if_false]
      exact .refused
    | false =>
      simp only [claimCleanupLocked, hclaimed, if_true, Bool.false_eq_true, if_false]
      exact .claims hclaimed
  | awaitCleanup =>
    simp only
    split_ifs with hthrew hdone hexpired
    · exact .gaveUp _ _ rfl (.inl rfl)
    · exact .cleanedUp
    · exact .gaveUp _ _ rfl (.inr rfl)
    · exact .stay _
  | cleanup byTeardown pc => exact runCleanup_effect _ _ _
  | report owner => exact .report _
  | inlineDestroy handle =>
    simp only
    split_ifs
    · exact .inlineDestroyed _ _
    · exact .inlineDestroyed _ _

/-- What a step leads to and emits. -/
inductive Effect (s : Coordinator) : Action → Coordinator → Option Event → Prop
  | refused (a : Action) : Effect s a s none
  | began (hlive : s.destroyed = false) :
      Effect s .beginFlow
        { s with
          activeFlow := some s.begun
          begun := s.begun + 1
          flows := Function.update s.flows s.begun {} } (some (.flowBegan s.begun))
  | published (flow : ℕ) (handle : Handle) :
      Effect s (.publishHandle flow handle)
        { s with flows := Function.update s.flows flow { s.flows flow with handle := handle } } none
  | slot (a : Action) (handles : NativeHandleSlot) : Effect s a { s with handles := handles } none
  | left (t flow : ℕ) : Effect s (.exit t flow) (s.leave flow) (some (.flowExited flow))
  | leftOwning (t flow : ℕ) (houtside : s.pcs t = .outside) (hin : (s.flows flow).exited = false)
      (hflow : flow < s.begun) (hrequested : s.teardownRequested = true)
      (hfree : s.cleanupClaimed = false) :
      Effect s (.exit t flow)
        ({ s.leave flow with cleanupClaimed := true }.goto t (.cleanup false .claimHandle))
        (some (.flowExited flow))
  | requested (t : ℕ) (houtside : s.pcs t = .outside) :
      Effect s (.requestTeardown t)
        ({ s with destroyed := true, teardownRequested := true }.goto t (.snapshot s.activeFlow))
        (some .teardownRequested)
  | inlineClaim (t : ℕ) (answer : Answer) (handles : NativeHandleSlot) (handle : Handle)
      (houtside : s.pcs t = .outside) :
      Effect s (.claimAndDestroyNativeHandle t answer)
        ({ s with handles := handles }.goto t (.inlineDestroy handle)) none
  | advance (t : ℕ) (answer : Answer) {s' : Coordinator} {e : Option Event}
      (hmove : Advance s t (s.pcs t) s' e) : Effect s (.advance t answer) s' e

theorem exit_effect (s : Coordinator) (t flow : ℕ) :
    Effect s (.exit t flow) (s.exit t flow).1 (s.exit t flow).2 := by
  unfold exit
  split_ifs with hin hrequested howns
  · cases hclaimed : s.cleanupClaimed with
    | true => simp [claimCleanupLocked, leave, hclaimed] at howns
    | false =>
      have hfree : (s.leave flow).cleanupClaimed = false := hclaimed
      simp only [claimCleanupLocked, hfree, Bool.false_eq_true, if_false]
      exact .leftOwning t flow hin.1 hin.2.2 hin.2.1 hrequested hclaimed
  · cases hclaimed : s.cleanupClaimed with
    | true =>
      have hheld : (s.leave flow).cleanupClaimed = true := hclaimed
      simp only [claimCleanupLocked, hheld, if_true]
      exact .left t flow
    | false => simp [claimCleanupLocked, leave, hclaimed] at howns
  · exact .left t flow
  · exact .refused _

/-- **What a step can do.** -/
theorem step_effect (s : Coordinator) (a : Action) : Effect s a (s.step a).1 (s.step a).2 := by
  cases a with
  | beginFlow =>
    simp only [step, beginFlow]
    split_ifs with hdestroyed
    · exact .refused _
    · exact .began (Bool.not_eq_true _ ▸ hdestroyed)
  | publishHandle flow handle => exact .published flow handle
  | publish handle => exact .slot _ _
  | exit t flow => exact s.exit_effect t flow
  | requestTeardown t =>
    simp only [step, requestTeardown]
    split_ifs with houtside
    · exact .requested t houtside
    · exact .refused _
  | claimAndDestroyNativeHandle t answer =>
    simp only [step, claimAndDestroyNativeHandle]
    split_ifs with hready
    · split
      · exact .inlineClaim t answer _ _ hready.1
      · exact .slot _ _
    · exact .refused _
  | advance t answer => exact .advance t answer (s.advance_effect t answer)

end Coordinator

/-- The runs of a coordinator with their logs. -/
abbrev coordinatorRun (as : List Action) : Logged Coordinator Event :=
  run (logStep Coordinator.step) ⟨{}, []⟩ as

end SoftEther.Native
