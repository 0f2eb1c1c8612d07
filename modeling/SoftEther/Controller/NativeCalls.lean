import SoftEther.Controller.Flows
import SoftEther.Lib.Reclamation
import SoftEther.Native.Coordinator

namespace SoftEther.Controller

open Lib SoftEther.Native

/-!
# The native calls of a controller

The threads of a `ConnectionController` take their flows operation by operation, in any order,
over the fields they share, the handle slot and the coordinator of the attempt.

* `Stage`, `Task`, `ConnectionController` — where a thread stands, and the fields;
* `Event` — a handle that was created, the beginnings and ends of native calls, and the
  beginnings of `nativeDestroy`;
* `Action`, `ConnectionController.step` — a thread is started, or takes its next step.

A native call takes three steps: the caller reads the handle, enters the call and returns.  The
native side checks a handle for zero only, so with a zero handle there is no call.  `nativeCreate`
gives an address that is not in use, or zero.
-/

/-! ### State -/

/-- Where a thread stands inside its operation. -/
inductive Stage
  /-- between two operations -/
  | next
  /-- after `nativeCreate`, before `flow.publishHandle(created)` -/
  | publishHandle
  /-- before `nativeHandle = created` -/
  | publish
  /-- the handle was read for the call -/
  | picked (fn : NativeCall) (handle : Handle)
  /-- inside the call -/
  | calling (fn : NativeCall) (handle : Handle)
  /-- `nativeHandle` was read, `externalHandle` is not written yet -/
  | external (handle : Handle)
  /-- in `destroyClaimedNativeHandle`, before `nativeDisconnect` -/
  | disconnect (handle : Handle)
  | disconnecting (handle : Handle)
  /-- before `nativeDestroy` -/
  | destroy (handle : Handle)
  | destroying (handle : Handle)
  /-- in a method of the coordinator -/
  | coordinator
  /-- in the coordinator's call of `nativeForceCloseSocket` -/
  | interrupting (handle : Handle)
  deriving DecidableEq, Repr

/-- A thread: what is left of its program, and its local variables. -/
structure Task where
  todo : List Op := []
  stage : Stage := .next
  created : Handle := 0
  flow : Option ℕ := none
  /-- the last native call failed -/
  failed : Bool := false

/-- The `reconnectJob`. -/
inductive Job
  | absent
  | launched
  | active (thread : ℕ)
  deriving DecidableEq, Repr

/-- The controller: the native lifecycle, the heap, the handles that flows read, and the threads. -/
structure ConnectionController where
  native : Coordinator := {}
  /-- what the allocator knows of an address -/
  heap : Handle → Reclamation.Status := fun _ => .free
  externalHandle : Handle := 0
  connectInFlight : Bool := false
  isCancelled : Bool := false
  isReconnecting : Bool := false
  reconnectAttempts : ℕ := 0
  currentState : ConnectionState := .disconnected
  connectionMutex : Option ℕ := none
  reconnectJob : Job := .absent
  scopeActive : Bool := true
  tunRunning : Bool := false
  monitoring : Bool := false
  tasks : ℕ → Task := fun _ => {}

abbrev Event := Reclamation.Event ℕ Handle NativeCall

/-- What the outside answers to one step. -/
structure Answer where
  /-- a test of the outside holds -/
  holds : Bool := false
  /-- the native call failed -/
  failed : Bool := false
  /-- the native call threw -/
  threw : Bool := false
  /-- a bounded wait is over -/
  expired : Bool := false
  /-- the handle that `nativeCreate` returned -/
  handle : Handle := 0
  /-- the state that `nativeGetState` was mapped to -/
  state : ConnectionState := .connecting

def Answer.native (answer : Answer) : Native.Answer where
  expired := answer.expired
  threw := answer.threw

namespace ConnectionController

/-! ### Tests and writes -/

/-- `MAX_RECONNECT_ATTEMPTS`. -/
def maxReconnectAttempts : ℕ := 2

/-- Thread `t` tests a condition. -/
def test (c : ConnectionController) (t : ℕ) (answer : Answer) : Cond → Bool
  | .cancelled => c.isCancelled
  | .destroyed => c.native.destroyed
  | .lost => c.native.handles.lost
  | .inFlight => c.connectInFlight
  | .noHandle => c.native.handles.handle = 0
  | .noneCreated => (c.tasks t).created = 0
  | .inState state => c.currentState = state
  | .notInState state => c.currentState ≠ state
  | .busy => c.currentState ≠ .disconnected && c.currentState ≠ .error
  | .tunStopped => !c.tunRunning
  | .notMonitoring => !c.monitoring
  | .failed => (c.tasks t).failed
  -- The certificates are no part of this state.
  | .blocked => answer.holds
  | .answer => answer.holds

/-- Thread `t` writes one of the plain fields. -/
def write (c : ConnectionController) (t : ℕ) (answer : Answer) : Write → ConnectionController
  | .cancelled value => { c with isCancelled := value }
  | .reconnecting value => { c with isReconnecting := value }
  | .inFlight value => { c with connectInFlight := value }
  | .state value => { c with currentState := value }
  | .sessionSetup =>
    { c with currentState := if c.currentState = .connected then .connected else .sessionSetup }
  | .disconnecting =>
    { c with
      currentState :=
        if c.currentState = .connected ∨ c.currentState = .connecting then .disconnecting
        else c.currentState }
  | .mapped =>
    { c with
      currentState :=
        if answer.state = .disconnected ∨ answer.state = .connected then c.currentState
        else answer.state }
  | .clearExternalHandle => { c with externalHandle := 0 }
  | .resetAttempts => { c with reconnectAttempts := 0 }
  | .terminal running => { c with tunRunning := running }
  | .monitor running => { c with monitoring := running }
  | .launchReconnect =>
    { c with
      reconnectJob :=
        if c.reconnectJob = .absent ∧ c.scopeActive = true then .launched else c.reconnectJob }
  | .cancelReconnect => { c with reconnectJob := .absent }
  | .completeReconnect =>
    { c with reconnectJob := if c.reconnectJob = .active t then .absent else c.reconnectJob }
  | .cancelScope => { c with scopeActive := false }

/-! ### Operations -/

/-- The record of thread `t` becomes `task`. -/
def setTask (c : ConnectionController) (t : ℕ) (task : Task) : ConnectionController :=
  { c with tasks := Function.update c.tasks t task }

/-- Thread `t` goes on at `stage`. -/
def goto (c : ConnectionController) (t : ℕ) (stage : Stage) : ConnectionController :=
  c.setTask t { c.tasks t with stage := stage }

/-- Thread `t` goes on with the program `todo`. -/
def goOn (c : ConnectionController) (t : ℕ) (todo : List Op) : ConnectionController :=
  c.setTask t { c.tasks t with todo := todo }

/-- The handle that thread `t` reads for a call. -/
def read (c : ConnectionController) (t : ℕ) : HandleSource → Handle
  | .created => (c.tasks t).created
  | .nativeHandle => c.native.handles.handle
  | .externalHandle => c.externalHandle

/-- The coordinator makes a step on behalf of thread `t`. -/
def coordinate (c : ConnectionController) (a : Native.Action) : ConnectionController :=
  { c with native := (c.native.step a).1 }

/-- Thread `t` goes on after a method of the coordinator, unless it is still in it. -/
def resume (c : ConnectionController) (t : ℕ) : ConnectionController :=
  c.goto t (if c.native.pcs t = .outside then .next else .coordinator)

/-- Thread `t` begins its next operation; `rest` is what comes after it. -/
def perform (config : ConnectionConfig) (c : ConnectionController) (t : ℕ) (answer : Answer)
    (rest : List Op) : Op → ConnectionController × Option Event
  | .exitIf condition block =>
    (c.goOn t (if c.test t answer condition then block else rest), none)
  | .write w => ((c.write t answer w).goOn t rest, none)
  | .getAndSetReconnecting block =>
    ({ c with isReconnecting := true }.goOn t (if c.isReconnecting then block else rest), none)
  | .incrementAttempts block =>
    ({ c with reconnectAttempts := c.reconnectAttempts + 1 }.goOn t
      (if c.reconnectAttempts + 1 ≥ maxReconnectAttempts then block else rest), none)
  | .lock =>
    if c.connectionMutex = none then ({ c with connectionMutex := some t }.goOn t rest, none)
    else (c, none)
  | .tryLock block =>
    if c.connectionMutex = none then ({ c with connectionMutex := some t }.goOn t rest, none)
    else (c.goOn t block, none)
  | .unlock => ({ c with connectionMutex := none }.goOn t rest, none)
  | .beginFlow block =>
    if c.native.destroyed then (c.goOn t block, none)
    else
      ((c.coordinate .beginFlow).setTask t
        { c.tasks t with todo := rest, flow := some c.native.begun }, none)
  | .exitFlow =>
    match (c.tasks t).flow with
    | none => (c.goOn t rest, none)
    | some flow =>
      (((c.coordinate (.exit t flow)).setTask t
        { c.tasks t with todo := rest, flow := none }).resume t, none)
  | .create =>
    if answer.handle = 0 then
      (c.setTask t { c.tasks t with todo := rest, created := 0, stage := .publishHandle }, none)
    else if c.heap answer.handle = .free then
      ({ c with heap := Function.update c.heap answer.handle .live }.setTask t
          { c.tasks t with todo := rest, created := answer.handle, stage := .publishHandle },
        some (.created answer.handle))
    else (c, none)
  | .call fn source =>
    if c.read t source = 0 then (c.setTask t { c.tasks t with todo := rest, failed := true }, none)
    else (c.setTask t { c.tasks t with todo := rest, stage := .picked fn (c.read t source) }, none)
  | .setExternalHandle =>
    (c.setTask t { c.tasks t with todo := rest, stage := .external c.native.handles.handle }, none)
  | .claimAndDestroyNativeHandle =>
    if c.native.handles.claimReady answer.expired then
      if c.native.handles.handle = 0 then
        ((c.coordinate (.claimAndDestroyNativeHandle t answer.native)).goOn t rest, none)
      else
        ((c.coordinate (.claimAndDestroyNativeHandle t answer.native)).setTask t
          { c.tasks t with todo := rest, stage := .disconnect c.native.handles.handle }, none)
    else (c, none)
  | .requestTeardown =>
    (((c.coordinate (.requestTeardown t)).goOn t rest).resume t, none)
  | .retry =>
    (c.goOn t
      (if c.reconnectAttempts < maxReconnectAttempts then connectTurn config else [.unlock]), none)

/-! ### Steps -/

/-- The next step of a thread that is in a method of the coordinator. -/
def inCoordinator (c : ConnectionController) (t : ℕ) (answer : Answer) :
    Pc → ConnectionController × Option Event
  | .interrupt _ handle =>
    (c.goto t (.interrupting handle), some (.callBegan t .forceCloseSocket handle))
  | .cleanup _ (.destroy handle) =>
    (({ c with heap := Function.update c.heap handle .dying }.coordinate
      (.advance t answer.native)).resume t, some (.destroyBegan t handle))
  | .cleanup _ (.destroying handle) =>
    (({ c with
        heap := if answer.threw then c.heap else Function.update c.heap handle .free }.coordinate
      (.advance t answer.native)).resume t, none)
  | _ => ((c.coordinate (.advance t answer.native)).resume t, none)

/-- Thread `t` takes its next step. -/
def advance (config : ConnectionConfig) (c : ConnectionController) (t : ℕ) (answer : Answer) :
    ConnectionController × Option Event :=
  match (c.tasks t).stage with
  | .next =>
    match (c.tasks t).todo with
    | [] => (c, none)
    | op :: rest => c.perform config t answer rest op
  | .publishHandle =>
    match (c.tasks t).flow with
    | none => (c.goto t .publish, none)
    | some flow =>
      ((c.coordinate (.publishHandle flow (c.tasks t).created)).goto t .publish, none)
  | .publish => ((c.coordinate (.publish (c.tasks t).created)).goto t .next, none)
  | .picked fn handle => (c.goto t (.calling fn handle), some (.callBegan t fn handle))
  | .calling fn handle =>
    (c.setTask t { c.tasks t with stage := .next, failed := answer.failed },
      some (.callReturned t fn handle))
  | .external handle => ({ c with externalHandle := handle }.goto t .next, none)
  | .disconnect handle =>
    (c.goto t (.disconnecting handle), some (.callBegan t .disconnect handle))
  | .disconnecting handle =>
    if answer.threw then
      ((c.coordinate (.advance t answer.native)).goto t .next,
        some (.callReturned t .disconnect handle))
    else (c.goto t (.destroy handle), some (.callReturned t .disconnect handle))
  | .destroy handle =>
    ({ c with heap := Function.update c.heap handle .dying }.goto t (.destroying handle),
      some (.destroyBegan t handle))
  | .destroying handle =>
    (({ c with
        heap := if answer.threw then c.heap else Function.update c.heap handle .free }.coordinate
      (.advance t answer.native)).goto t .next, none)
  | .coordinator => c.inCoordinator t answer (c.native.pcs t)
  | .interrupting handle =>
    ((c.coordinate (.advance t answer.native)).resume t,
      some (.callReturned t .forceCloseSocket handle))

end ConnectionController

/-- A thread enters a flow or goes on. -/
inductive Action
  | start (thread : ℕ) (entry : Entry)
  | advance (thread : ℕ) (answer : Answer)

namespace ConnectionController

/-- An idle thread is started; a launched reconnect is started once. -/
def start (config : ConnectionConfig) (c : ConnectionController) (t : ℕ) (entry : Entry) :
    ConnectionController :=
  if (c.tasks t).stage = .next ∧ (c.tasks t).todo.isEmpty = true then
    match entry with
    | .attemptReconnect =>
      if c.reconnectJob = .launched then
        { c with reconnectJob := .active t }.goOn t (entry.program config)
      else c
    | _ => c.goOn t (entry.program config)
  else c

/-- One step, with the event it emits. -/
def step (config : ConnectionConfig) (c : ConnectionController) :
    Action → ConnectionController × Option Event
  | .start t entry => (c.start config t entry, none)
  | .advance t answer => c.advance config t answer

end ConnectionController

/-- The runs of a controller with their logs. -/
abbrev controllerRun (config : ConnectionConfig) (as : List Action) :
    Logged ConnectionController Event :=
  run (logStep (ConnectionController.step config)) ⟨{}, []⟩ as

end SoftEther.Controller
