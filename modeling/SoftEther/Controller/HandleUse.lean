import SoftEther.Controller.NativeCalls

namespace SoftEther.Controller

open Lib Lib.Reclamation SoftEther.Native

/-!
# Native calls and the destruction of their handle

* `ConnectionController.ledger` — what the threads of a controller do with its handles;
* `ConnectionController.Placed` — the stage of a thread fits its place in the coordinator;
* `ConnectionController.label` — the handle that a step reads for a call, or claims;
* `step_simulates` — each step of the controller is one of the ledger;
* `no_call_after_destroy` — a handle is destroyed once, and in a run in which handles are read
  before they are claimed and claimed while nobody uses them, no native call meets or follows the
  destruction of its handle.

The claim of a handle goes through the slot, so it is made once.  But the TUN callback and the
receive loop read `externalHandle`, which a reconnect does not clear, and no claim waits for the
calls that are under way.
-/

/-- The thread that is started, or takes its next step. -/
def Action.thread : Action → ℕ
  | .start t _ => t
  | .advance t _ => t

/-! ### The ledger of a controller -/

/-- What a thread in a method of the coordinator does with a handle. -/
def pcRole : Pc → Role Handle
  | .interrupt _ handle => .picked handle
  | .cleanup _ (.destroy handle) => .claims handle
  | .cleanup _ (.destroying handle) => .destroys handle
  | _ => .idle

/-- What a thread does with a handle. -/
def Task.role (task : Task) (pc : Pc) : Role Handle :=
  match task.stage with
  | .next => .idle
  | .publishHandle => if task.created = 0 then .idle else .fresh task.created
  | .publish => if task.created = 0 then .idle else .fresh task.created
  | .picked _ handle => .picked handle
  | .calling _ handle => .calls handle
  | .external _ => .idle
  | .disconnect handle => .claims handle
  | .disconnecting handle => .ownCall handle
  | .destroy handle => .claims handle
  | .destroying handle => .destroys handle
  | .coordinator => pcRole pc
  | .interrupting handle => .calls handle

/-- The places in the coordinator that a stage goes with. -/
def Stage.Fits : Stage → Pc → Prop
  | .disconnect _, pc => ∃ handle, pc = .inlineDestroy handle
  | .disconnecting _, pc => ∃ handle, pc = .inlineDestroy handle
  | .destroy _, pc => ∃ handle, pc = .inlineDestroy handle
  | .destroying _, pc => ∃ handle, pc = .inlineDestroy handle
  | .coordinator, _ => True
  | .interrupting handle, pc => ∃ flow, pc = .interrupt flow handle
  | _, pc => pc = .outside

namespace ConnectionController

/-- The handle in the slot, if there is one. -/
def published (c : ConnectionController) : Option Handle :=
  if c.native.handles.handle = 0 then none else some c.native.handles.handle

/-- What a thread has of a handle, by the flow and the teardown it is in. -/
def role (c : ConnectionController) (t : ℕ) : Role Handle := (c.tasks t).role (c.native.pcs t)

/-- The handles and their users. -/
def ledger (c : ConnectionController) : Ledger ℕ Handle where
  status := c.heap
  published := c.published
  role := c.role

/-- The stage of every thread fits its place in the native code. -/
def Placed (c : ConnectionController) : Prop :=
  ∀ t, (c.tasks t).stage.Fits (c.native.pcs t)

/-- A claim takes the handle in the slot, once it is ready. -/
def claimLabel (c : ConnectionController) (expired : Bool) : Label Handle :=
  if c.native.handles.claimReady expired = true ∧ c.native.handles.handle ≠ 0 then
    .claims c.native.handles.handle
  else .none

/-- A caller reads a handle, unless it is zero. -/
def pickLabel (handle : Handle) : Label Handle := if handle = 0 then .none else .picks handle

/-- What an operation does to the handles. -/
def opLabel (c : ConnectionController) (t : ℕ) (answer : Answer) : Op → Label Handle
  | .call _ source => pickLabel (c.read t source)
  | .claimAndDestroyNativeHandle => c.claimLabel answer.expired
  | _ => .none

/-- What a step of the native lifecycle does to the handles. -/
def pcLabel (c : ConnectionController) (answer : Answer) : Pc → Label Handle
  | .snapshot (some flow) => pickLabel (c.native.flows flow).handle
  | .cleanup _ .claimHandle => if answer.threw then .none else c.claimLabel answer.expired
  | _ => .none

/-- The handle that a step reads for a call, or claims for its destruction. -/
def label (c : ConnectionController) : Action → Label Handle
  | .start _ _ => .none
  | .advance t answer =>
    match (c.tasks t).stage with
    | .next =>
      match (c.tasks t).todo with
      | [] => .none
      | op :: _ => c.opLabel t answer op
    | .coordinator => c.pcLabel answer (c.native.pcs t)
    | _ => .none

/-! ### A step is local to its thread -/

/-- Nothing but thread `t` moves from `c` to `c'`. -/
def Local (c c' : ConnectionController) (t : ℕ) : Prop :=
  ∀ u, u ≠ t → c'.tasks u = c.tasks u ∧ c'.native.pcs u = c.native.pcs u

variable {c c' : ConnectionController} {t : ℕ}

theorem Local.setTask (h : Local c c' t) (task : Task) : Local c (c'.setTask t task) t := by
  intro u hne
  obtain ⟨htask, hpc⟩ := h u hne
  refine ⟨?_, hpc⟩
  show Function.update c'.tasks t task u = c.tasks u
  rw [Function.update_of_ne hne]
  exact htask

theorem Local.of_eq {c₁ : ConnectionController} (h : Local c c' t) (htasks : c₁.tasks = c'.tasks)
    (hnative : c₁.native.pcs = c'.native.pcs) : Local c c₁ t := by
  intro u hne
  rw [htasks, hnative]
  exact h u hne

theorem Local.refl (c : ConnectionController) (t : ℕ) : Local c c t := fun _ _ => ⟨rfl, rfl⟩

theorem published_congr (h : c'.native.handles.handle = c.native.handles.handle) :
    c'.published = c.published := by
  unfold published
  rw [h]

/-- The ledger after a step of thread `t`. -/
theorem Local.ledger_eq (h : Local c c' t) {status : Handle → Status} {published : Option Handle}
    {role : Role Handle} (hstatus : c'.heap = status) (hpublished : c'.published = published)
    (hrole : c'.role t = role) :
    c'.ledger = { c.ledger with status := status, published := published }.goto t role := by
  subst hstatus hpublished hrole
  have hroles : c'.role = Function.update c.role t (c'.role t) := by
    funext u
    rcases eq_or_ne u t with rfl | hne
    · rw [Function.update_self]
    · rw [Function.update_of_ne hne]
      obtain ⟨htask, hpc⟩ := h u hne
      unfold ConnectionController.role
      rw [htask, hpc]
  exact congrArg (fun roles => (⟨c'.heap, c'.published, roles⟩ : Ledger ℕ Handle)) hroles

/-- A step that leaves the handles alone. -/
theorem Local.stay (h : Local c c' t) (hstatus : c'.heap = c.heap)
    (hpublished : c'.published = c.published) (hrole : c'.role t = c.role t) :
    c'.ledger = c.ledger := by
  rw [h.ledger_eq hstatus hpublished hrole]
  show (⟨c.heap, c.published, Function.update c.role t (c.role t)⟩ : Ledger ℕ Handle) = _
  rw [Function.update_eq_self]
  rfl

/-! ### The coordinator -/

/-- The step of the coordinator is one of thread `t`, or of no thread. -/
def ByThread (t : ℕ) : Native.Action → Prop
  | .exit u _ => u = t
  | .requestTeardown u => u = t
  | .claimAndDestroyNativeHandle u _ => u = t
  | .advance u _ => u = t
  | _ => True

theorem step_pcs_of_ne (s : Coordinator) {a : Native.Action} (ha : ByThread t a) {u : ℕ}
    (hne : u ≠ t) : (s.step a).1.pcs u = s.pcs u := by
  have heffect := s.step_effect a
  generalize (s.step a).1 = s', (s.step a).2 = e at heffect ⊢
  cases heffect with
  | refused => rfl
  | began => rfl
  | published => rfl
  | slot => rfl
  | left => rfl
  | leftOwning v flow =>
    cases ha
    exact Coordinator.goto_pcs_of_ne _ hne _
  | requested v =>
    cases ha
    exact Coordinator.goto_pcs_of_ne _ hne _
  | inlineClaim v =>
    cases ha
    exact Coordinator.goto_pcs_of_ne _ hne _
  | advance v answer hmove =>
    have hthread : v = t := ha
    rw [hthread] at hmove
    generalize s.pcs t = pc at hmove
    cases hmove with
    | stay => rfl
    | _ => exact Coordinator.goto_pcs_of_ne _ hne _

theorem Local.coordinate (h : Local c c' t) {a : Native.Action} (ha : ByThread t a) :
    Local c (c'.coordinate a) t := by
  intro u hne
  obtain ⟨htask, hpc⟩ := h u hne
  exact ⟨htask, (step_pcs_of_ne c'.native ha hne).trans hpc⟩

/-- The end of a flow leaves the slot alone, and its thread is outside or about to clean up. -/
theorem exit_spec (s : Coordinator) (flow : ℕ) (houtside : s.pcs t = .outside) :
    (s.exit t flow).1.handles = s.handles ∧
      ((s.exit t flow).1.pcs t = .outside ∨
        (s.exit t flow).1.pcs t = .cleanup false .claimHandle) := by
  constructor
  · unfold Coordinator.exit Coordinator.claimCleanupLocked Coordinator.leave
    split_ifs <;> rfl
  · have heffect := s.exit_effect t flow
    generalize (s.exit t flow).1 = s', (s.exit t flow).2 = e at heffect ⊢
    cases heffect with
    | refused => exact .inl houtside
    | left => exact .inl houtside
    | leftOwning => exact .inr (Coordinator.goto_pcs_self _ _ _)
    | slot => exact .inl houtside

theorem requestTeardown_spec (s : Coordinator) (houtside : s.pcs t = .outside) :
    (s.requestTeardown t).1.handles = s.handles ∧
      (s.requestTeardown t).1.pcs t = .snapshot s.activeFlow := by
  unfold Coordinator.requestTeardown
  rw [if_pos houtside]
  exact ⟨rfl, Coordinator.goto_pcs_self _ _ _⟩

/-- The slot answers a claim with its handle, and an empty slot is left as it is. -/
theorem claimHandle_empty {slot : NativeHandleSlot} (h : slot.handle = 0) :
    slot.claimHandle = (slot, .lost) ∨ slot.claimHandle = (slot, .nothingOutstanding) := by
  unfold NativeHandleSlot.claimHandle
  rw [if_neg (fun hne => hne h)]
  split_ifs
  · exact .inl rfl
  · exact .inr rfl

/-- An inline claim of an empty slot. -/
theorem claim_empty (s : Coordinator) (answer : Native.Answer) (houtside : s.pcs t = .outside)
    (hready : s.handles.claimReady answer.expired = true) (hempty : s.handles.handle = 0) :
    (s.claimAndDestroyNativeHandle t answer).1 = s := by
  unfold Coordinator.claimAndDestroyNativeHandle
  rw [if_pos ⟨houtside, hready⟩]
  rcases claimHandle_empty hempty with hclaim | hclaim <;> rw [hclaim]

/-- An inline claim of the handle in the slot. -/
theorem claim_spec (s : Coordinator) (answer : Native.Answer) (houtside : s.pcs t = .outside)
    (hready : s.handles.claimReady answer.expired = true) (hne : s.handles.handle ≠ 0) :
    (s.claimAndDestroyNativeHandle t answer).1.handles.handle = 0 ∧
      (s.claimAndDestroyNativeHandle t answer).1.pcs t = .inlineDestroy s.handles.handle := by
  have hclaim : s.handles.claimHandle = _ := if_pos hne
  unfold Coordinator.claimAndDestroyNativeHandle
  rw [if_pos ⟨houtside, hready⟩, hclaim]
  exact ⟨rfl, Coordinator.goto_pcs_self _ _ _⟩

/-- Only a claim changes the handle in the slot. -/
theorem advance_handle (s : Coordinator) (answer : Native.Answer)
    (hpc : ∀ byTeardown, s.pcs t ≠ .cleanup byTeardown .claimHandle) :
    (s.advance t answer).1.handles.handle = s.handles.handle := by
  unfold Coordinator.advance
  cases h : s.pcs t with
  | snapshot flow =>
    cases flow with
    | none => rfl
    | some flow =>
      dsimp only
      split_ifs <;> rfl
  | awaitExit flow =>
    dsimp only
    split_ifs <;> rfl
  | claimCleanup =>
    dsimp only [Coordinator.claimCleanupLocked]
    split_ifs <;> rfl
  | awaitCleanup =>
    dsimp only
    split_ifs <;> rfl
  | cleanup byTeardown pc =>
    cases pc with
    | claimHandle => exact absurd h (hpc byTeardown)
    | destroying handle =>
      dsimp only [Coordinator.runCleanup]
      split_ifs <;> rfl
    | _ => rfl
  | inlineDestroy handle =>
    dsimp only
    split_ifs <;> rfl
  | _ => rfl

/-- A thread at this place does not take, destroy or interrupt a handle in its next step. -/
def quiet : Pc → Bool
  | .snapshot (some _) => false
  | .interrupt _ _ => false
  | .cleanup _ .claimHandle => false
  | .cleanup _ (.destroy _) => false
  | .cleanup _ (.destroying _) => false
  | _ => true

theorem pcRole_of_quiet {pc : Pc} (h : quiet pc = true) : pcRole pc = .idle := by
  unfold pcRole
  split <;> first | rfl | cases h

theorem advance_quiet (s : Coordinator) (answer : Native.Answer) (h : quiet (s.pcs t) = true) :
    pcRole ((s.advance t answer).1.pcs t) = .idle := by
  have hmove := s.advance_effect t answer
  generalize hpc : s.pcs t = pc at hmove h
  generalize (s.advance t answer).1 = s', (s.advance t answer).2 = e at hmove ⊢
  cases hmove with
  | stay pc =>
    rw [hpc]
    exact pcRole_of_quiet h
  | countDown byTeardown pc hnext =>
    rw [Coordinator.goto_pcs_self]
    rcases hnext with rfl | rfl <;> rfl
  | readHandle => cases h
  | noHandle => cases h
  | interrupt => cases h
  | nothing => cases h
  | takes => cases h
  | lost => cases h
  | destroy => cases h
  | destroyThrew => cases h
  | destroyReturned => cases h
  | _ =>
    rw [Coordinator.goto_pcs_self]
    rfl

/-- A teardown reads the handle of the flow it found. -/
theorem snapshot_spec (s : Coordinator) (answer : Native.Answer) {flow : ℕ}
    (hpc : s.pcs t = .snapshot (some flow)) :
    pcRole ((s.advance t answer).1.pcs t) =
      if (s.flows flow).handle = 0 then .idle else .picked (s.flows flow).handle := by
  unfold Coordinator.advance
  rw [hpc]
  dsimp only
  by_cases hzero : (s.flows flow).handle = 0
  · rw [if_neg (fun hne => hne hzero), if_pos hzero, Coordinator.goto_pcs_self]
    rfl
  · rw [if_pos hzero, if_neg hzero, Coordinator.goto_pcs_self]
    rfl

theorem destroy_spec (s : Coordinator) (answer : Native.Answer) {byTeardown : Bool}
    {handle : Handle} (hpc : s.pcs t = .cleanup byTeardown (.destroy handle)) :
    pcRole ((s.advance t answer).1.pcs t) = .destroys handle := by
  unfold Coordinator.advance
  rw [hpc]
  dsimp only [Coordinator.runCleanup]
  rw [Coordinator.goto_pcs_self]
  rfl

theorem destroying_spec (s : Coordinator) (answer : Native.Answer) {byTeardown : Bool}
    {handle : Handle} (hpc : s.pcs t = .cleanup byTeardown (.destroying handle)) :
    pcRole ((s.advance t answer).1.pcs t) = .idle := by
  unfold Coordinator.advance
  rw [hpc]
  dsimp only [Coordinator.runCleanup]
  split_ifs
  · rw [Coordinator.goto_pcs_self]
    rfl
  · rw [Coordinator.goto_pcs_self]
    rfl

/-- A cleanup owner that cannot claim, or finds the slot empty. -/
theorem cleanup_claim_nothing (s : Coordinator) (answer : Native.Answer) {byTeardown : Bool}
    (hpc : s.pcs t = .cleanup byTeardown .claimHandle)
    (h : answer.threw = true ∨ ¬ (s.handles.claimReady answer.expired = true ∧
      s.handles.handle ≠ 0)) :
    (s.advance t answer).1.handles.handle = s.handles.handle ∧
      pcRole ((s.advance t answer).1.pcs t) = .idle := by
  have hadvance : s.advance t answer = s.runCleanup t byTeardown answer .claimHandle := by
    unfold Coordinator.advance
    rw [hpc]
  rw [hadvance]
  dsimp only [Coordinator.runCleanup]
  by_cases hthrew : answer.threw = true
  · rw [if_pos hthrew, Coordinator.goto_pcs_self]
    exact ⟨rfl, rfl⟩
  · rw [if_neg hthrew]
    by_cases hready : s.handles.claimReady answer.expired = true
    · rw [if_pos hready]
      have hempty : s.handles.handle = 0 := by
        by_contra hne
        exact (h.resolve_left hthrew) ⟨hready, hne⟩
      rcases claimHandle_empty hempty with hclaim | hclaim
      · rw [hclaim]
        exact ⟨rfl, by rw [Coordinator.goto_pcs_self]; rfl⟩
      · rw [hclaim]
        exact ⟨rfl, by rw [Coordinator.goto_pcs_self]; rfl⟩
    · rw [if_neg hready, hpc]
      exact ⟨rfl, rfl⟩

/-- A cleanup owner that claims the handle in the slot. -/
theorem cleanup_claim_spec (s : Coordinator) (answer : Native.Answer) {byTeardown : Bool}
    (hpc : s.pcs t = .cleanup byTeardown .claimHandle) (hthrew : ¬ answer.threw = true)
    (hready : s.handles.claimReady answer.expired = true) (hne : s.handles.handle ≠ 0) :
    (s.advance t answer).1.handles.handle = 0 ∧
      (s.advance t answer).1.pcs t = .cleanup byTeardown (.destroy s.handles.handle) := by
  have hadvance : s.advance t answer = s.runCleanup t byTeardown answer .claimHandle := by
    unfold Coordinator.advance
    rw [hpc]
  have hclaim : s.handles.claimHandle = _ := if_pos hne
  rw [hadvance]
  dsimp only [Coordinator.runCleanup]
  rw [if_neg hthrew, if_pos hready, hclaim]
  exact ⟨rfl, Coordinator.goto_pcs_self _ _ _⟩

/-! ### Operations -/

/-- The result of a step of thread `t`: it is local, the thread is placed, and the ledger made a
    step of the given label. -/
structure Simulates (c : ConnectionController) (t : ℕ) (label : Label Handle)
    (result : ConnectionController × Option Event) : Prop where
  isLocal : c.Local result.1 t
  fits : (result.1.tasks t).stage.Fits (result.1.native.pcs t)
  step : c.ledger.Step t label result.1.ledger result.2

@[simp] theorem setTask_tasks_self (task : Task) : (c.setTask t task).tasks t = task := by
  simp only [setTask, Function.update_self]

@[simp] theorem setTask_role (task : Task) :
    (c.setTask t task).role t = task.role (c.native.pcs t) := by
  show ((c.setTask t task).tasks t).role (c.native.pcs t) = _
  rw [setTask_tasks_self]

/-- What thread `t` has after a method of the coordinator. -/
theorem resume_spec : (c.resume t).role t = pcRole (c.native.pcs t) ∧
    ((c.resume t).tasks t).stage.Fits ((c.resume t).native.pcs t) := by
  show (((c.resume t).tasks t).role (c.native.pcs t) = _) ∧
    ((c.resume t).tasks t).stage.Fits (c.native.pcs t)
  unfold resume ConnectionController.goto
  rw [setTask_tasks_self]
  by_cases houtside : c.native.pcs t = .outside
  · rw [if_pos houtside, houtside]
    exact ⟨rfl, rfl⟩
  · rw [if_neg houtside]
    exact ⟨rfl, trivial⟩

theorem Local.resume (h : Local c c' t) : Local c (c'.resume t) t := h.setTask _

/-- A step that moves the thread, and with it a handle. -/
theorem Simulates.moves {label : Label Handle} {e : Option Event} (hlocal : Local c c' t)
    (hfits : (c'.tasks t).stage.Fits (c'.native.pcs t)) {status : Handle → Status}
    {published : Option Handle} {role : Role Handle} (hstatus : c'.heap = status)
    (hpublished : c'.published = published) (hrole : c'.role t = role)
    (hstep : c.ledger.Step t label
      ({ c.ledger with status := status, published := published }.goto t role) e) :
    c.Simulates t label (c', e) := by
  refine ⟨hlocal, hfits, ?_⟩
  show c.ledger.Step t label c'.ledger e
  rw [hlocal.ledger_eq hstatus hpublished hrole]
  exact hstep

/-- A thread that is in no method of the coordinator moves to another stage. -/
theorem Simulates.setTask {label : Label Handle} {e : Option Event} (hlocal : Local c c' t)
    {task : Task} (hfits : task.stage.Fits (c'.native.pcs t)) {status : Handle → Status}
    {published : Option Handle} (hstatus : c'.heap = status) (hpublished : c'.published = published)
    (hstep : c.ledger.Step t label
      ({ c.ledger with status := status, published := published }.goto t
        (task.role (c'.native.pcs t))) e) :
    c.Simulates t label (c'.setTask t task, e) := by
  refine .moves (hlocal.setTask task) ?_ hstatus hpublished (setTask_role task) hstep
  rw [setTask_tasks_self]
  exact hfits

/-- A thread moves inside a method of the coordinator, or out of it. -/
theorem Simulates.resumes {label : Label Handle} {e : Option Event} (hlocal : Local c c' t)
    {status : Handle → Status} {published : Option Handle} {role : Role Handle}
    (hstatus : c'.heap = status) (hpublished : c'.published = published)
    (hrole : pcRole (c'.native.pcs t) = role)
    (hstep : c.ledger.Step t label
      ({ c.ledger with status := status, published := published }.goto t role) e) :
    c.Simulates t label (c'.resume t, e) :=
  .moves hlocal.resume resume_spec.2 hstatus hpublished (resume_spec.1.trans hrole) hstep

/-- A refused step. -/
theorem Simulates.refused (hplaced : c.Placed) : c.Simulates t .none (c, none) :=
  ⟨Local.refl c t, hplaced t, .stay⟩

/-- A thread between two operations goes on, and the handles are where they were. -/
theorem Simulates.idle (hplaced : c.Placed) (hnext : (c.tasks t).stage = .next)
    (htasks : c'.tasks = c.tasks) (hheap : c'.heap = c.heap)
    (hpcs : c'.native.pcs = c.native.pcs)
    (hhandle : c'.native.handles.handle = c.native.handles.handle) {task : Task}
    (hrole : task.role .outside = .idle) (hfits : task.stage.Fits .outside) :
    c.Simulates t .none (c'.setTask t task, none) := by
  have houtside : c.native.pcs t = .outside := by
    have hfits := hplaced t
    rw [hnext] at hfits
    exact hfits
  have houtside' : (c'.setTask t task).native.pcs t = .outside := by
    rw [← houtside, ← hpcs]
    rfl
  have hlocal : c.Local (c'.setTask t task) t :=
    ((Local.refl c t).of_eq htasks hpcs).setTask task
  constructor
  · exact hlocal
  · show ((c'.setTask t task).tasks t).stage.Fits _
    rw [setTask_tasks_self, houtside']
    exact hfits
  · have hstay : (c'.setTask t task).ledger = c.ledger := by
      apply hlocal.stay hheap
      · exact published_congr hhandle
      · unfold role
        rw [setTask_tasks_self, houtside', hrole]
        unfold Task.role
        rw [hnext]
    show c.ledger.Step t .none (c'.setTask t task).ledger none
    rw [hstay]
    exact .stay

theorem Simulates.goOn (hplaced : c.Placed) (hnext : (c.tasks t).stage = .next)
    (htasks : c'.tasks = c.tasks) (hheap : c'.heap = c.heap)
    (hpcs : c'.native.pcs = c.native.pcs)
    (hhandle : c'.native.handles.handle = c.native.handles.handle) (todo : List Op) :
    c.Simulates t .none (c'.goOn t todo, none) := by
  have hstage : (c'.tasks t).stage = .next := by
    rw [htasks]
    exact hnext
  apply Simulates.idle hplaced hnext htasks hheap hpcs hhandle
  · unfold Task.role
    rw [hstage]
  · show (c'.tasks t).stage.Fits .outside
    rw [hstage]
    rfl

theorem write_spec (answer : Answer) (w : Write) :
    (c.write t answer w).tasks = c.tasks ∧ (c.write t answer w).heap = c.heap ∧
      (c.write t answer w).native = c.native := by
  cases w <;> exact ⟨rfl, rfl, rfl⟩

/-- A thread goes on after a method of the coordinator that left the handles alone. -/
theorem Simulates.resume (hlocal : Local c c' t) (hheap : c'.heap = c.heap)
    (hhandle : c'.native.handles.handle = c.native.handles.handle)
    (hrole : pcRole (c'.native.pcs t) = c.role t) :
    c.Simulates t .none (c'.resume t, none) := by
  constructor
  · exact hlocal.resume
  · exact resume_spec.2
  · have hstay : (c'.resume t).ledger = c.ledger := by
      apply hlocal.resume.stay hheap
      · exact published_congr hhandle
      · exact resume_spec.1.trans hrole
    show c.ledger.Step t .none (c'.resume t).ledger none
    rw [hstay]
    exact .stay

/-- A thread reads the handle for a call. -/
theorem Simulates.pick (hplaced : c.Placed) (hnext : (c.tasks t).stage = .next) (fn : NativeCall)
    {handle : Handle} (hne : handle ≠ 0) (rest : List Op) :
    c.Simulates t (pickLabel handle)
      (c.setTask t { c.tasks t with todo := rest, stage := .picked fn handle }, none) := by
  have hfits := hplaced t
  have hidle : c.role t = .idle := by
    unfold role Task.role
    rw [hnext]
  rw [hnext] at hfits
  unfold pickLabel
  rw [if_neg hne]
  exact .setTask (Local.refl c t) hfits rfl rfl (.pick handle hidle)

/-- The inline claim of the handle in the slot. -/
theorem Simulates.claim (hplaced : c.Placed) (hnext : (c.tasks t).stage = .next) (answer : Answer)
    (rest : List Op) :
    c.Simulates t (c.claimLabel answer.expired)
      (c.perform config t answer rest .claimAndDestroyNativeHandle) := by
  have houtside : c.native.pcs t = .outside := by
    have hfits := hplaced t
    rw [hnext] at hfits
    exact hfits
  have hlocal : c.Local (c.coordinate (.claimAndDestroyNativeHandle t answer.native)) t :=
    (Local.refl c t).coordinate (a := .claimAndDestroyNativeHandle t answer.native) rfl
  dsimp only [perform, claimLabel]
  by_cases hready : c.native.handles.claimReady answer.expired = true
  · rw [if_pos hready]
    by_cases hempty : c.native.handles.handle = 0
    · -- There is no handle in the slot.
      have hsame := claim_empty c.native answer.native houtside hready hempty
      rw [if_pos hempty, if_neg (fun h => h.2 hempty)]
      apply Simulates.goOn hplaced hnext
      · rfl
      · rfl
      · show (c.native.claimAndDestroyNativeHandle t answer.native).1.pcs = _
        rw [hsame]
      · show (c.native.claimAndDestroyNativeHandle t answer.native).1.handles.handle = _
        rw [hsame]
    · obtain ⟨htaken, hpc⟩ := claim_spec c.native answer.native houtside hready hempty
      rw [if_neg hempty, if_pos ⟨hready, hempty⟩]
      have hnone : (c.coordinate (.claimAndDestroyNativeHandle t answer.native)).published = none :=
        if_pos htaken
      have hidle : c.role t = .idle := by
        unfold role Task.role
        rw [hnext]
      exact .setTask hlocal ⟨_, hpc⟩ rfl hnone (.claim _ (if_neg hempty) hidle)
  · rw [if_neg hready, if_neg (fun h => hready h.1)]
    exact .refused hplaced

/-- **One operation.** -/
theorem perform_simulates (hplaced : c.Placed) (hnext : (c.tasks t).stage = .next)
    (config : ConnectionConfig) (answer : Answer) (rest : List Op) (op : Op) :
    c.Simulates t (c.opLabel t answer op) (c.perform config t answer rest op) := by
  have houtside : c.native.pcs t = .outside := by
    have hfits := hplaced t
    rw [hnext] at hfits
    exact hfits
  have hidle : c.role t = .idle := by
    unfold role Task.role
    rw [hnext]
  -- Most operations write fields that have nothing to do with the handles.
  have hfields : ∀ (c' : ConnectionController) todo, c'.tasks = c.tasks → c'.heap = c.heap →
      c'.native = c.native → c.Simulates t .none (c'.goOn t todo, none) := by
    intro c' todo htasks hheap hnative
    exact .goOn hplaced hnext htasks hheap (by rw [hnative]) (by rw [hnative]) todo
  have hgoOn : ∀ todo, c.Simulates t .none (c.goOn t todo, none) := fun todo =>
    hfields c todo rfl rfl rfl
  cases op with
  | exitIf condition block => exact hgoOn _
  | write w =>
    obtain ⟨htasks, hheap, hnative⟩ := c.write_spec (t := t) answer w
    exact hfields _ rest htasks hheap hnative
  | getAndSetReconnecting block =>
    exact hfields { c with isReconnecting := true } _ rfl rfl rfl
  | incrementAttempts block =>
    exact hfields { c with reconnectAttempts := c.reconnectAttempts + 1 } _ rfl rfl rfl
  | lock =>
    dsimp only [perform]
    split_ifs
    · exact hfields { c with connectionMutex := some t } _ rfl rfl rfl
    · exact .refused hplaced
  | tryLock block =>
    dsimp only [perform]
    split_ifs
    · exact hfields { c with connectionMutex := some t } _ rfl rfl rfl
    · exact hgoOn _
  | unlock => exact hfields { c with connectionMutex := none } _ rfl rfl rfl
  | beginFlow block =>
    dsimp only [perform]
    by_cases hdestroyed : c.native.destroyed = true
    · rw [if_pos hdestroyed]
      exact hgoOn _
    · rw [if_neg hdestroyed]
      have hbegun : c.native.step .beginFlow = _ := if_neg hdestroyed
      apply Simulates.idle hplaced hnext
      · rfl
      · rfl
      · show (c.native.step .beginFlow).1.pcs = _
        rw [hbegun]
      · show (c.native.step .beginFlow).1.handles.handle = _
        rw [hbegun]
      · unfold Task.role
        rw [hnext]
      · rw [hnext]
        rfl
  | exitFlow =>
    dsimp only [perform]
    cases (c.tasks t).flow with
    | none => exact hgoOn _
    | some flow =>
      obtain ⟨hhandles, hpc⟩ := exit_spec c.native flow houtside
      apply Simulates.resume
      · exact Local.setTask ((Local.refl c t).coordinate (a := .exit t flow) rfl) _
      · rfl
      · show (c.native.exit t flow).1.handles.handle = _
        rw [hhandles]
      · rw [hidle]
        show pcRole ((c.native.exit t flow).1.pcs t) = .idle
        rcases hpc with hpc | hpc <;> rw [hpc] <;> rfl
  | create =>
    dsimp only [perform]
    split_ifs with hzero hfree
    · apply Simulates.idle hplaced hnext
      · rfl
      · rfl
      · rfl
      · rfl
      · show (if (0 : Handle) = 0 then Role.idle else .fresh 0) = .idle
        exact if_pos rfl
      · rfl
    · have hlocal : c.Local { c with heap := Function.update c.heap answer.handle .live } t :=
        (Local.refl c t).of_eq rfl rfl
      have hfresh : ({ c.tasks t with
          todo := rest, created := answer.handle, stage := .publishHandle } : Task).role
            (c.native.pcs t) = .fresh answer.handle := if_neg hzero
      refine .setTask hlocal houtside rfl rfl ?_
      rw [show (_ : Role Handle) = _ from hfresh]
      exact .create answer.handle hfree hidle
    · exact .refused hplaced
  | call fn source =>
    dsimp only [perform, opLabel]
    split_ifs with hzero
    · rw [hzero]
      apply Simulates.idle hplaced hnext
      · rfl
      · rfl
      · rfl
      · rfl
      · unfold Task.role
        rw [hnext]
      · rw [hnext]
        rfl
    · exact .pick hplaced hnext fn hzero rest
  | setExternalHandle => exact .idle hplaced hnext rfl rfl rfl rfl rfl rfl
  | claimAndDestroyNativeHandle => exact .claim hplaced hnext answer rest
  | requestTeardown =>
    obtain ⟨hhandles, hpc⟩ := requestTeardown_spec c.native houtside
    apply Simulates.resume
    · exact Local.setTask ((Local.refl c t).coordinate (a := .requestTeardown t) rfl) _
    · rfl
    · show (c.native.requestTeardown t).1.handles.handle = _
      rw [hhandles]
    · rw [hidle]
      show pcRole ((c.native.requestTeardown t).1.pcs t) = .idle
      rw [hpc]
      rfl
  | retry => exact hgoOn _

/-! ### Steps -/

/-- **One step inside the coordinator.** -/
theorem inCoordinator_simulates (hstage : (c.tasks t).stage = .coordinator) (answer : Answer) :
    c.Simulates t (c.pcLabel answer (c.native.pcs t))
      (c.inCoordinator t answer (c.native.pcs t)) := by
  have hrole : c.role t = pcRole (c.native.pcs t) := by
    unfold role Task.role
    rw [hstage]
  have hbyThread : ByThread t (.advance t answer.native) := rfl
  have hlocal : c.Local (c.coordinate (.advance t answer.native)) t :=
    (Local.refl c t).coordinate hbyThread
  -- A step that takes, destroys and interrupts nothing.
  have hquiet : (c.native.advance t answer.native).1.handles.handle = c.native.handles.handle →
      pcRole ((c.native.advance t answer.native).1.pcs t) = .idle → c.role t = .idle →
        c.Simulates t .none ((c.coordinate (.advance t answer.native)).resume t, none) := by
    intro hhandle hidle hwas
    exact .resume hlocal rfl hhandle (hidle.trans hwas.symm)
  have hkept : (∀ byTeardown, c.native.pcs t ≠ .cleanup byTeardown .claimHandle) →
      (c.native.advance t answer.native).1.handles.handle = c.native.handles.handle :=
    advance_handle c.native answer.native
  cases hpc : c.native.pcs t with
  | snapshot flow =>
    rw [hpc] at hrole hkept
    cases flow with
    | none =>
      apply hquiet (hkept nofun) ?_ hrole
      apply advance_quiet
      rw [hpc]
      rfl
    | some flow =>
      have hnext := snapshot_spec c.native answer.native hpc
      by_cases hzero : (c.native.flows flow).handle = 0
      · have hlabel : c.pcLabel answer (.snapshot (some flow)) = .none := if_pos hzero
        rw [hlabel]
        rw [if_pos hzero] at hnext
        exact hquiet (hkept nofun) hnext hrole
      · have hlabel : c.pcLabel answer (.snapshot (some flow)) =
            .picks (c.native.flows flow).handle := if_neg hzero
        rw [hlabel]
        rw [if_neg hzero] at hnext
        exact .resumes hlocal rfl (published_congr (hkept nofun)) hnext (.pick _ hrole)
  | interrupt flow handle =>
    rw [hpc] at hrole
    refine .setTask (Local.refl c t) ?_ rfl rfl (.begins NativeCall.forceCloseSocket handle hrole)
    rw [hpc]
    exact ⟨flow, rfl⟩
  | cleanup byTeardown pc =>
    rw [hpc] at hrole hkept
    cases pc with
    | claimHandle =>
      dsimp only [pcLabel, claimLabel, inCoordinator]
      by_cases hclaim : answer.threw = true ∨ ¬ (c.native.handles.claimReady answer.expired = true ∧
          c.native.handles.handle ≠ 0)
      · have hlabel : (if answer.threw = true then Label.none else
            if c.native.handles.claimReady answer.expired = true ∧ c.native.handles.handle ≠ 0 then
              .claims c.native.handles.handle else .none) = .none := by
          rcases hclaim with hthrew | hnot
          · exact if_pos hthrew
          · rw [if_neg hnot, ite_self]
        obtain ⟨hhandle, hidle⟩ := cleanup_claim_nothing c.native answer.native hpc hclaim
        rw [hlabel]
        exact hquiet hhandle hidle hrole
      · obtain ⟨hthrew, hready⟩ := not_or.mp hclaim
        obtain ⟨hready, hne⟩ := not_not.mp hready
        obtain ⟨htaken, hnext⟩ :=
          cleanup_claim_spec c.native answer.native hpc hthrew hready hne
        rw [if_neg hthrew, if_pos ⟨hready, hne⟩]
        have hnone : (c.coordinate (.advance t answer.native)).published = none := if_pos htaken
        have hclaims : pcRole ((c.coordinate (.advance t answer.native)).native.pcs t) =
            .claims c.native.handles.handle := congrArg pcRole hnext
        exact .resumes hlocal rfl hnone hclaims (.claim _ (if_neg hne) hrole)
    | destroy handle =>
      have hheap : c.Local { c with heap := Function.update c.heap handle .dying } t :=
        (Local.refl c t).of_eq rfl rfl
      exact .resumes (hheap.coordinate hbyThread) rfl (published_congr (hkept nofun))
        (destroy_spec c.native answer.native hpc) (.destroy handle hrole)
    | destroying handle =>
      have hheap : c.Local { c with
          heap := if answer.threw then c.heap else Function.update c.heap handle .free } t :=
        (Local.refl c t).of_eq rfl rfl
      refine .resumes (hheap.coordinate hbyThread) rfl (published_congr (hkept nofun))
        (destroying_spec c.native answer.native hpc) ?_
      by_cases hthrew : answer.threw = true
      · rw [if_pos hthrew]
        exact .unproven handle hrole
      · rw [if_neg hthrew]
        exact .freed handle hrole
    | _ =>
      apply hquiet (hkept nofun) ?_ hrole
      apply advance_quiet
      rw [hpc]
      rfl
  | _ =>
    apply hquiet (hkept (by rw [hpc]; nofun))
    · apply advance_quiet
      rw [hpc]
      rfl
    · rw [hrole, hpc]
      rfl

/-- The step of the coordinator that publishes, or settles, for thread `t`. -/
theorem settle_spec (s : Coordinator) (answer : Native.Answer) {handle : Handle}
    (hpc : s.pcs t = .inlineDestroy handle) :
    (s.advance t answer).1.handles.handle = s.handles.handle ∧
      (s.advance t answer).1.pcs t = .outside := by
  refine ⟨advance_handle s answer (by rw [hpc]; nofun), ?_⟩
  unfold Coordinator.advance
  rw [hpc]
  dsimp only
  split_ifs
  · exact Coordinator.goto_pcs_self _ _ _
  · exact Coordinator.goto_pcs_self _ _ _

/-- The slot takes a handle, unless a destroy is in flight or unproven. -/
theorem publish_spec (handle : Handle) :
    (c.coordinate (.publish handle)).published = c.published ∨
      (c.coordinate (.publish handle)).published = if handle = 0 then none else some handle := by
  dsimp only [coordinate, Coordinator.step, published, NativeHandleSlot.publish]
  by_cases hrefused : (c.native.handles.lost || c.native.handles.destroyInFlight) = true
  · rw [if_pos hrefused]
    exact .inl rfl
  · rw [if_neg hrefused]
    exact .inr rfl

theorem interrupt_spec (s : Coordinator) (answer : Native.Answer) {flow : ℕ} {handle : Handle}
    (hpc : s.pcs t = .interrupt flow handle) :
    (s.advance t answer).1.handles.handle = s.handles.handle ∧
      pcRole ((s.advance t answer).1.pcs t) = .idle := by
  refine ⟨advance_handle s answer (by rw [hpc]; nofun), ?_⟩
  unfold Coordinator.advance
  rw [hpc]
  dsimp only
  rw [Coordinator.goto_pcs_self]
  split_ifs <;> rfl

/-- A thread publishes the handle it created. -/
theorem Simulates.publish (hstage : (c.tasks t).stage = .publish)
    (houtside : c.native.pcs t = .outside) :
    c.Simulates t .none
      ((c.coordinate (.publish (c.tasks t).created)).goto t .next, none) := by
  have hrole : c.role t =
      (if (c.tasks t).created = 0 then .idle else .fresh (c.tasks t).created) := by
    unfold role Task.role
    rw [hstage]
  have hlocal : c.Local (c.coordinate (.publish (c.tasks t).created)) t :=
    (Local.refl c t).coordinate (a := .publish (c.tasks t).created) trivial
  rcases c.publish_spec (c.tasks t).created with hrefused | htaken
  · refine .setTask hlocal houtside rfl hrefused ?_
    by_cases hzero : (c.tasks t).created = 0
    · rw [if_pos hzero] at hrole
      show c.ledger.Step t .none (c.ledger.goto t .idle) none
      rw [Ledger.goto_eq_self hrole]
      exact .stay
    · rw [if_neg hzero] at hrole
      exact .leak _ hrole
  · refine .setTask hlocal houtside rfl htaken ?_
    by_cases hzero : (c.tasks t).created = 0
    · rw [if_pos hzero] at hrole ⊢
      show c.ledger.Step t .none ({ c.ledger with published := none }.goto t .idle) none
      rw [Ledger.goto_eq_self hrole]
      exact .forget
    · rw [if_neg hzero] at hrole ⊢
      exact .publish _ hrole

/-- **One step of a thread.** -/
theorem advance_simulates (hplaced : c.Placed) (config : ConnectionConfig) (t : ℕ)
    (answer : Answer) :
    c.Simulates t (c.label (.advance t answer)) (c.advance config t answer) := by
  have hfits := hplaced t
  have hrole : c.role t = (c.tasks t).role (c.native.pcs t) := rfl
  unfold Task.role at hrole
  have hbyThread : ByThread t (.advance t answer.native) := rfl
  dsimp only [advance, label]
  -- one step of the ledger for each stage
  cases hstage : (c.tasks t).stage with
  | next =>
    dsimp only
    cases (c.tasks t).todo with
    | nil => exact .refused hplaced
    | cons op rest => exact perform_simulates hplaced hstage config answer rest op
  | publishHandle =>
    rw [hstage] at hfits hrole
    dsimp only
    cases (c.tasks t).flow with
    | none =>
      refine .setTask (Local.refl c t) hfits rfl rfl ?_
      show c.ledger.Step t .none (c.ledger.goto t _) none
      rw [Ledger.goto_eq_self hrole]
      exact .stay
    | some flow =>
      have hlocal : c.Local (c.coordinate (.publishHandle flow (c.tasks t).created)) t :=
        (Local.refl c t).coordinate (a := .publishHandle flow (c.tasks t).created) trivial
      refine .setTask hlocal hfits rfl rfl ?_
      show c.ledger.Step t .none (c.ledger.goto t _) none
      rw [Ledger.goto_eq_self hrole]
      exact .stay
  | publish =>
    rw [hstage] at hfits
    exact .publish hstage hfits
  | picked fn handle =>
    rw [hstage] at hfits hrole
    exact .setTask (Local.refl c t) hfits rfl rfl (.begins fn handle hrole)
  | calling fn handle =>
    rw [hstage] at hfits hrole
    exact .setTask (Local.refl c t) hfits rfl rfl (.returns fn handle hrole)
  | external handle =>
    rw [hstage] at hfits hrole
    have hlocal : c.Local { c with externalHandle := handle } t := (Local.refl c t).of_eq rfl rfl
    refine .setTask hlocal hfits rfl rfl ?_
    show c.ledger.Step t .none (c.ledger.goto t .idle) none
    rw [Ledger.goto_eq_self hrole]
    exact .stay
  | disconnect handle =>
    rw [hstage] at hfits hrole
    exact .setTask (Local.refl c t) hfits rfl rfl (.ownBegins NativeCall.disconnect handle hrole)
  | disconnecting handle =>
    rw [hstage] at hfits hrole
    dsimp only
    by_cases hthrew : answer.threw = true
    · obtain ⟨claimed, hpc⟩ := hfits
      obtain ⟨hhandle, houtside⟩ := settle_spec c.native answer.native hpc
      rw [if_pos hthrew]
      exact .setTask ((Local.refl c t).coordinate hbyThread) houtside rfl (published_congr hhandle)
        (.ownFails NativeCall.disconnect handle hrole)
    · rw [if_neg hthrew]
      exact .setTask (Local.refl c t) hfits rfl rfl (.ownReturns NativeCall.disconnect handle hrole)
  | destroy handle =>
    rw [hstage] at hfits hrole
    have hheap : c.Local { c with heap := Function.update c.heap handle .dying } t :=
      (Local.refl c t).of_eq rfl rfl
    exact .setTask hheap hfits rfl rfl (.destroy handle hrole)
  | destroying handle =>
    rw [hstage] at hfits hrole
    obtain ⟨claimed, hpc⟩ := hfits
    obtain ⟨hhandle, houtside⟩ := settle_spec c.native answer.native hpc
    have hheap : c.Local { c with
        heap := if answer.threw then c.heap else Function.update c.heap handle .free } t :=
      (Local.refl c t).of_eq rfl rfl
    refine .setTask (hheap.coordinate hbyThread) houtside rfl (published_congr hhandle) ?_
    by_cases hthrew : answer.threw = true
    · rw [if_pos hthrew]
      exact .unproven handle hrole
    · rw [if_neg hthrew]
      exact .freed handle hrole
  | coordinator => exact inCoordinator_simulates hstage answer
  | interrupting handle =>
    rw [hstage] at hfits hrole
    obtain ⟨flow, hpc⟩ := hfits
    obtain ⟨hhandle, hidle⟩ := interrupt_spec c.native answer.native hpc
    exact .resumes ((Local.refl c t).coordinate hbyThread) rfl (published_congr hhandle) hidle
      (.returns NativeCall.forceCloseSocket handle hrole)

/-- Starting a thread moves no handle. -/
theorem start_simulates (hplaced : c.Placed) (config : ConnectionConfig) (t : ℕ) (entry : Entry) :
    c.Simulates t .none (c.start config t entry, none) := by
  unfold start
  by_cases hidle : (c.tasks t).stage = .next ∧ (c.tasks t).todo.isEmpty = true
  · rw [if_pos hidle]
    split
    · split_ifs
      · apply Simulates.goOn hplaced hidle.1 <;> rfl
      · exact .refused hplaced
    · apply Simulates.goOn hplaced hidle.1 <;> rfl
  · rw [if_neg hidle]
    exact .refused hplaced

theorem Simulates.placed {label : Label Handle} {result : ConnectionController × Option Event}
    (h : c.Simulates t label result) (hplaced : c.Placed) : result.1.Placed := by
  intro u
  rcases eq_or_ne u t with rfl | hne
  · exact h.fits
  · obtain ⟨htask, hpc⟩ := h.isLocal u hne
    rw [htask, hpc]
    exact hplaced u

/-- **One step.** -/
theorem step_simulates (hplaced : c.Placed) (config : ConnectionConfig)
    (a : Action) : c.Simulates a.thread (c.label a) (c.step config a) := by
  cases a with
  | start t entry => exact start_simulates hplaced config t entry
  | advance t answer => exact advance_simulates hplaced config t answer

/-- **Each step is one of the ledger.** -/
theorem step_keeps (config : ConnectionConfig) :
    Keeps (ConnectionController.step config) ledger label Placed := by
  constructor
  · intro c a hplaced
    exact (step_simulates hplaced config a).placed hplaced
  · intro c a hplaced
    exact ⟨a.thread, (step_simulates hplaced config a).step⟩

end ConnectionController

/-! ### Runs -/

open ConnectionController in
theorem ledger_empty : (ledger {}).Empty :=
  ⟨fun _ => rfl, rfl, fun _ => rfl⟩

open ConnectionController in
/-- **Destroyed once, and no native call on a destroyed connection.** In every run each handle is
    destroyed once.  In a run in which every handle that is read for a call is in the slot, or live
    and not claimed, and every handle is claimed while nobody uses it, no native call with a handle
    is under way when its destruction begins, and none begins afterwards. -/
theorem no_call_after_destroy (config : ConnectionConfig) (as : List Action) :
    Checked DestroyedOnce (controllerRun config as).log ∧
      (Along (logStep (step config))
        (fun x a => x.state.ledger.Disciplined (x.state.label a)) ⟨{}, []⟩ as →
          Checked NoUseAfterDestroy (controllerRun config as).log) := by
  have hplaced : Placed {} := fun _ => rfl
  constructor
  · exact destroyedOnce_of_keeps (step_keeps config) hplaced ledger_empty as
  · intro hdisciplined
    exact noUseAfterDestroy_of_keeps (step_keeps config) hplaced ledger_empty hdisciplined

/-- Thread `t` takes `n` steps; `nativeCreate` answers 7. -/
def steps (t n : ℕ) : List Action := List.replicate n (.advance t { handle := 7 })

namespace ConnectionController

/-- A handle that is read for a call is the one in the slot. -/
def PicksPublished (published : Option Handle) : Label Handle → Prop
  | .picks handle => published = some handle
  | _ => True

instance (published : Option Handle) : (label : Label Handle) →
    Decidable (PicksPublished published label)
  | .none => inferInstanceAs (Decidable True)
  | .picks handle => inferInstanceAs (Decidable (published = some handle))
  | .claims _ => inferInstanceAs (Decidable True)

/-- A thread that runs alone and reads its handles from the slot keeps the discipline. -/
theorem disciplined_alone {config : ConnectionConfig} {t : ℕ} {as : List Action}
    {x : Logged ConnectionController Event} (has : ∀ a ∈ as, a.thread = t)
    (hplaced : x.state.Placed) (halone : ∀ u, u ≠ t → x.state.role u = .idle)
    (hpicks : Along (logStep (step config))
      (fun x a => PicksPublished x.state.published (x.state.label a)) x as) :
    Along (logStep (step config))
      (fun x a => x.state.ledger.Disciplined (x.state.label a)) x as := by
  induction as generalizing x with
  | nil => trivial
  | cons a as ih =>
    obtain ⟨hpick, hrest⟩ := hpicks
    have hthread : a.thread = t := has a List.mem_cons_self
    have hsimulates := step_simulates hplaced config a
    rw [hthread] at hsimulates
    constructor
    · apply hsimulates.step.disciplined_alone halone
      intro handle hlabel
      have hpublished : PicksPublished x.state.published (x.state.label a) := hpick
      rw [hlabel] at hpublished
      exact hpublished
    · refine ih (fun a ha => has a (List.mem_cons_of_mem _ ha)) (hsimulates.placed hplaced) ?_ hrest
      intro u hne
      obtain ⟨htask, hpc⟩ := hsimulates.isLocal u hne
      rw [← halone u hne]
      unfold role
      rw [← htask, ← hpc]
      rfl

end ConnectionController

/-- A connect that cannot arm the socket protector, on its own. -/
def failedConnect : List Action :=
  .start 0 .connect :: steps 0 18 ++ .advance 0 { handle := 7, failed := true } :: steps 0 12

/-- The failed connect destroys its handle after its last call. -/
theorem no_call_after_destroy_failed_connect :
    Checked NoUseAfterDestroy (controllerRun {} failedConnect).log := by
  apply (no_call_after_destroy {} failedConnect).2
  apply ConnectionController.disciplined_alone (t := 0)
  · decide
  · exact fun _ => rfl
  · exact fun _ _ => rfl
  · decide

/-- The connection is up, and thread 1 is in `nativeSendSlice`.  The keepalive loop finds the
    connection dead, and the reconnect destroys it. -/
def reconnectMeetsSend : List Action :=
  .start 0 .connect :: steps 0 69 ++ .start 1 .onPacket :: steps 1 3 ++
    .start 2 .keepalive :: steps 2 7 ++ .start 3 .attemptReconnect :: steps 3 15

set_option maxRecDepth 4000 in
/-- A reconnect destroys the connection under the call of the TUN callback. -/
theorem no_call_after_destroy_fails :
    ¬ ∀ (config : ConnectionConfig) (as : List Action),
      Checked NoUseAfterDestroy (controllerRun config as).log := by
  intro hall
  have h := hall {} reconnectMeetsSend
  have hlog : (controllerRun {} reconnectMeetsSend).log =
      .destroyBegan 3 7 :: (controllerRun {} reconnectMeetsSend).log.tail := by
    decide
  have hsending : InCall 1 7 (controllerRun {} reconnectMeetsSend).log.tail := by
    decide
  exact (h.head hlog).2 1 hsending

end SoftEther.Controller
