import SoftEther.Native.Registry
import SoftEther.Service.SessionPolicy
import SoftEther.Service.TunOwnership

namespace SoftEther.Service

open Lib SoftEther.Native
open SoftEther.Controller (ConnectionState)

/-!
# The service (`SoftEtherVpnService.kt`)

The part of the service that starts, stops and replaces sessions and publishes their states. Every
action is one call on it, or one stretch of a connect coroutine between two of its calls. Between
two actions time passes; the wall clock, which the bounds read, may be set to any value.

* `VpnService` — the fields of the service, the native slot, and what happened so far;
* `handleConnectionState`, `firePending`, `stopVpn`, `startVpn` — the functions of the source;
* `buildController`, `connectReturned`, `connectCancelled`, `connectFailed` — the coroutine that
  `startVpn` launches;
* `Action`, `VpnService.step` — an action of the outside, and the service after it.

The notification and its texts are left out, and so is the address that goes with a broadcast.
What the controllers report, install and ask of the native slot, and when, is up to the outside.
-/

/-- A state that the controller of a session assigned; reports are numbered as they come. -/
structure Report where
  session : Int
  state : ConnectionState
  number : ℕ
  deriving DecidableEq, Repr

/-- `pendingStateRunnable`: the state it publishes and when the handler may run it. -/
structure Parked where
  report : Report
  dueAt : ℕ
  deriving DecidableEq, Repr

/-- A connect coroutine: its session, and the lease it was launched with. -/
structure Attempt where
  session : Int
  lease : Lease
  deriving DecidableEq

/-- What the listeners and the sessions see. -/
inductive ServiceEvent
  | started (session : Int)
  | teardown (session : Int)
  | reported (report : Report)
  | published (state : ConnectionState) (report : Option Report)
  deriving DecidableEq

/-- The service and the process-wide slot. `launching` are the coroutines that have not built
    their controller, `connecting` those inside `connect`. The last fields are history: the jobs
    that were launched and cancelled, the controllers that were built, those that were asked to
    destroy their resources and those that were given up, and the events, newest first. -/
structure VpnService (T : Type*) where
  uptime : ℕ := 0
  clock : ℤ := 0
  policy : SessionPolicy := {}
  mIsUserDisconnect : Bool := false
  controller : Option Int := none
  connectionJob : Option Int := none
  attemptConnectingEnteredAtMs : ℤ := 0
  pendingStateRunnable : Option Parked := none
  lastStateUpdateTime : ℤ := 0
  tunOwnership : Tun T := Tun.new
  registry : Registry := {}
  launching : List Attempt := []
  connecting : List Attempt := []
  jobs : List Int := []
  cancelled : List Int := []
  created : List Attempt := []
  destroyRequested : List Int := []
  abandoned : List Int := []
  reports : ℕ := 0
  log : List ServiceEvent := []
  deriving DecidableEq

/-- `CONNECTED`, `DISCONNECTED` and `ERROR` always pass through immediately. -/
def isTerminalState (state : ConnectionState) : Bool :=
  state = .connected || state = .disconnected || state = .error

namespace VpnService

variable {T : Type*} (s : VpnService T)

/-! ### Publishing -/

/-- `sendConnectionStateBroadcast`, and the report it publishes, if it publishes one. -/
def sendConnectionStateBroadcast (state : ConnectionState) (report : Option Report) :
    VpnService T :=
  { s with log := .published state report :: s.log }

/-- The rate limit of `handleConnectionState`: a state that is not terminal is parked when the last
    one is less than 200 ms old. -/
def publishOrPark (report : Report) : VpnService T :=
  if !isTerminalState report.state && heldMs s.clock s.lastStateUpdateTime < 200 then
    { s with pendingStateRunnable := some ⟨report, s.uptime + 200⟩ }
  else
    { s with lastStateUpdateTime := s.clock }.sendConnectionStateBroadcast report.state
      (some report)

/-- `handleConnectionState`. -/
def handleConnectionState (report : Report) : VpnService T :=
  let state := report.state
  if !s.policy.shouldDeliver state then s
  else
    let s := { s with pendingStateRunnable := none }
    if (state = .error || state = .disconnected) && !s.mIsUserDisconnect then
      let s :=
        { s with policy := if s.policy.wasConnected then s.policy.onConnectionLost else s.policy }
      s.sendConnectionStateBroadcast state (some report)
    else if state = .connected then
      { s with
        policy := s.policy.onConnectedDelivered
        mIsUserDisconnect := false }.publishOrPark report
    else s.publishOrPark report

/-- `onStateChange`, the callback that carries the identity of its session. -/
def onStateChange (session : Int) (state : ConnectionState) : VpnService T :=
  let report : Report := ⟨session, state, s.reports⟩
  let s := { s with reports := s.reports + 1, log := .reported report :: s.log }
  if !s.policy.isCurrentSession session then s else s.handleConnectionState report

/-- The delayed update runs, when there is one and its time has come. -/
def firePending : VpnService T :=
  match s.pendingStateRunnable with
  | none => s
  | some parked =>
    if parked.dueAt ≤ s.uptime then
      { s with pendingStateRunnable := none }.sendConnectionStateBroadcast parked.report.state
        (some parked.report)
    else s

/-! ### Teardown -/

/-- What the start gate and the teardown ask: is anything of a session left? -/
def resourcesLive : Bool :=
  s.controller.isSome || s.tunOwnership.isHeld || s.connectionJob.isSome

/-- What `stopVpn` does after the gate: it cancels the job, takes the controller, releases the
    TUN and asks the controller to destroy its resources. -/
def releaseSession (tearingDown : Int) : VpnService T :=
  { s with
    cancelled := s.connectionJob.toList ++ s.cancelled
    connectionJob := none
    attemptConnectingEnteredAtMs := 0
    destroyRequested := s.controller.toList ++ s.destroyRequested
    controller := none
    tunOwnership := (s.tunOwnership.release tearingDown).1 }

/-- The state that a teardown publishes. -/
def terminalState (disconnectByError : Bool) : ConnectionState :=
  if disconnectByError then .error else .disconnected

/-- `stopVpn`. -/
def stopVpn (disconnectByError : Bool) : VpnService T :=
  let tearingDown := s.policy.sessionGeneration
  let s :=
    { s with
      tunOwnership := s.tunOwnership.invalidate tearingDown
      log := .teardown tearingDown :: s.log }
  let (policy, runs) := s.policy.beginTeardown s.resourcesLive
  let s := { s with policy := policy }
  let s := s.sendConnectionStateBroadcast (terminalState disconnectByError) none
  if !runs then s else s.releaseSession tearingDown

/-- `onError`: the callback tears its session down, while that is the current one. -/
def onError (session : Int) : VpnService T :=
  if s.policy.shouldTearDownOnError session then
    { s with mIsUserDisconnect := false }.stopVpn true
  else s

/-! ### Start -/

/-- What `abandonWedgedConnectingAttemptIfAny` asks for: an attempt with a job that is not running
    and entered connecting at least the bound ago. -/
def Wedged : Prop :=
  s.attemptConnectingEnteredAtMs ≠ 0 ∧ s.connectionJob ≠ none ∧ s.policy.isRunning = false ∧
    NATIVE_SLOT_FORCE_RELEASE_CONNECTING_AFTER_MS ≤
      heldMs s.clock s.attemptConnectingEnteredAtMs

instance : Decidable s.Wedged := by
  unfold Wedged
  infer_instance

/-- `abandonWedgedConnectingAttemptIfAny`: no destroy is asked of the controller. -/
def abandonWedgedConnectingAttemptIfAny : VpnService T :=
  if s.Wedged then
    let abandonedSession := s.policy.sessionGeneration
    { s with
      tunOwnership :=
        ((s.tunOwnership.invalidate abandonedSession).release abandonedSession).1
      cancelled := s.connectionJob.toList ++ s.cancelled
      connectionJob := none
      abandoned := s.controller.toList ++ s.abandoned
      controller := none
      attemptConnectingEnteredAtMs := 0 }
  else s

end VpnService

/-- `acquireNativeSlotOrRecover`. -/
def acquireNativeSlotOrRecover (nowMs : ℤ) (r : Registry) : Registry × Option Lease :=
  match r.tryAcquire nowMs with
  | (r, some lease, _) => (r, some lease)
  | (r, none, _) =>
    let (r, released) := r.forceReleaseStaleTeardown nowMs
    if !released then (r, none) else ((r.tryAcquire nowMs).1, (r.tryAcquire nowMs).2.1)

namespace VpnService

variable {T : Type*} (s : VpnService T)

/-- What `startVpn` does once it was accepted. -/
def startSession (registry : Registry) (nativeLease : Lease) : VpnService T :=
  let policy := s.policy.onSessionStart
  let session := policy.sessionGeneration
  { s with
    registry := registry
    policy := policy
    tunOwnership := (s.tunOwnership.claim session).getD s.tunOwnership
    pendingStateRunnable := none
    lastStateUpdateTime := 0
    attemptConnectingEnteredAtMs := s.clock
    connectionJob := some session
    jobs := session :: s.jobs
    launching := ⟨session, nativeLease⟩ :: s.launching
    log := .started session :: s.log }

/-- `startVpn`. -/
def startVpn : VpnService T :=
  let s := s.abandonWedgedConnectingAttemptIfAny
  if s.policy.decideStart s.resourcesLive ≠ .ACCEPT then s
  else
    match acquireNativeSlotOrRecover s.clock s.registry with
    | (registry, none) => { s with registry := registry }
    | (registry, some nativeLease) => s.startSession registry nativeLease

/-! ### The connect coroutine -/

/-- The coroutine builds its controller, which takes over the lease. -/
def buildController (a : Attempt) : VpnService T :=
  if a ∈ s.launching then
    { s with
      launching := s.launching.erase a
      connecting := a :: s.connecting
      created := a :: s.created
      controller := some a.session }
  else s

/-- `connect` returned. -/
def connectReturned (a : Attempt) : VpnService T :=
  if a ∈ s.connecting then
    let s := { s with connecting := s.connecting.erase a }
    if s.policy.isCurrentSession a.session then
      { s with policy := s.policy.onRunning, attemptConnectingEnteredAtMs := 0 }
    else s
  else s

/-- `releaseLeaseIfUnclaimed`, and the end of the coroutine. -/
def endCoroutine (a : Attempt) : VpnService T :=
  if a ∈ s.launching then
    { s with
      launching := s.launching.erase a
      registry := (s.registry.confirmTeardown (some a.lease)).1 }
  else { s with connecting := s.connecting.erase a }

/-- What the `catch` of a cancellation does with the controller: it is this session's own only
    while the session is current. -/
def destroyOwned (a : Attempt) : VpnService T :=
  let owned := if s.policy.isCurrentSession a.session then s.controller else none
  { s with
    mIsUserDisconnect := true
    destroyRequested := owned.toList ++ s.destroyRequested
    controller := if owned.isSome then none else s.controller }

/-- The `catch` of a cancellation. -/
def connectCancelled (a : Attempt) : VpnService T :=
  if a ∈ s.launching ∨ a ∈ s.connecting then
    let s := (s.destroyOwned a).endCoroutine a
    if s.policy.isCurrentSession a.session then s.sendConnectionStateBroadcast .disconnected none
    else s
  else s

/-- The `catch` of any other failure tears down as `onError` does, then gives the lease back. -/
def connectFailed (a : Attempt) : VpnService T :=
  if a ∈ s.launching ∨ a ∈ s.connecting then (s.onError a.session).endCoroutine a else s

/-! ### The outside -/

/-- `establishVpnInterface` for a session; `answer` is what the platform does. -/
def establishVpnInterface (session : Int) (answer : Establish T) : VpnService T :=
  match s.tunOwnership.installEnter session with
  | none => s
  | some tun => { s with tunOwnership := (tun.installLeave session answer).1 }

/-- `releaseVpnInterface`. -/
def releaseVpnInterface (session : Int) : VpnService T :=
  { s with tunOwnership := (s.tunOwnership.release session).1 }

/-- A call of a controller on the native slot, under its lease. -/
def nativeCall (a : Attempt) (call : Call) : VpnService T :=
  if a ∈ s.created ∧ call.lease = some (some a.lease) then
    { s with registry := (s.registry.call s.clock call).1 }
  else s

end VpnService

/-- What the outside does. -/
inductive Action (T : Type*)
  /-- `ACTION_CONNECT` -/
  | connect
  /-- `ACTION_DISCONNECT` -/
  | disconnect
  | stateChange (session : Int) (state : ConnectionState)
  | error (session : Int)
  | firePending
  | buildController (attempt : Attempt)
  | connectReturned (attempt : Attempt)
  | connectCancelled (attempt : Attempt)
  | connectFailed (attempt : Attempt)
  | establish (session : Int) (answer : Establish T)
  | release (session : Int)
  | native (attempt : Attempt) (call : Call)

/-- An action, some milliseconds after the one before, and what the wall clock shows then. -/
structure Timed (T : Type*) where
  elapsed : ℕ
  nowMs : ℤ
  action : Action T

namespace VpnService

variable {T : Type*}

/-- The service after an action. -/
def act (s : VpnService T) : Action T → VpnService T
  | .connect => { s with mIsUserDisconnect := false }.startVpn
  | .disconnect => { s with mIsUserDisconnect := true }.stopVpn false
  | .stateChange session state => s.onStateChange session state
  | .error session => s.onError session
  | .firePending => s.firePending
  | .buildController attempt => s.buildController attempt
  | .connectReturned attempt => s.connectReturned attempt
  | .connectCancelled attempt => s.connectCancelled attempt
  | .connectFailed attempt => s.connectFailed attempt
  | .establish session answer => s.establishVpnInterface session answer
  | .release session => s.releaseVpnInterface session
  | .native attempt call => s.nativeCall attempt call

/-- Time passes. -/
def wait (s : VpnService T) (elapsed : ℕ) (nowMs : ℤ) : VpnService T :=
  { s with
    uptime := s.uptime + elapsed
    clock := nowMs }

/-- Some time passes, then one action. -/
def step (s : VpnService T) (t : Timed T) : VpnService T := (s.wait t.elapsed t.nowMs).act t.action

/-- A new service. -/
def new : VpnService T := {}

end VpnService

end SoftEther.Service
