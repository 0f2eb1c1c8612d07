import SoftEther.Lib.Coroutines
import SoftEther.Lib.Transition

namespace SoftEther.AutoMode

open Lib

/-!
# The coroutines of automatic connection (`AutoModeController.kt`)

A run, the continuation of a skip, a reconnect, the network retry and the watcher of the tunnel
are coroutines. One is modelled by the points it suspends at, and by what it does from one of
them to the next in one atomic step. What it reads from outside (the answers of calls, the
lengths of its lists) is a `Reading`.

* `Controller` — the fields of the controller and its scope;
* `runFrom`, `skipFrom`, `reconnectFrom`, `retryFrom`, `watcherFrom` — the coroutines;
* `stop`, `disconnectNow`, `onButtonPressed`, `skipToNextServer` — the calls of the user;
* `step` — one event.
-/

/-! ### State -/

/-- `ConnectionOrigin`, as far as runs have one. -/
inductive ConnectionOrigin
  | AUTO_CONNECT
  | AUTO_RECONNECT
  deriving DecidableEq, Repr

/-- The messages of `AutoModeState.Error`. -/
inductive RunError
  | ERROR_NO_SERVER
  | ERROR_NO_MORE_UNTRIED
  | ERROR_VPN_PERMISSION
  | ERROR_RECONNECT_LIMIT
  | ERROR_NO_ENABLED_PROTOCOL
  | ERROR_NO_NETWORK
  | emptyServerListMessage
  deriving DecidableEq, Repr

/-- `AutoModeState`, without the server that is named with it. -/
inductive AutoModeState
  | Disconnected
  | Connecting
  | Connected
  | Error (message : RunError)
  deriving DecidableEq, Repr

/-- `AttemptOutcome`. -/
inductive AttemptOutcome
  | TUNNEL_UP
  | NATIVE_BUSY
  | TIMED_OUT
  | NATIVE_ERROR
  | MISSING_CONFIG
  deriving DecidableEq, Repr

/-- How `adapter.connect` ends. -/
inductive ConnectReply
  | returned
  | VpnPermissionMissingException
  | threw
  deriving DecidableEq, Repr

/-- The suspension points of `runAutoMode`, in the order of the code. `skipped` is
`skippedByUser`. -/
inductive RunPoint
  | launched
  | serverProvider
  | loadHistory (wasOverride wasReconnect : Bool)
  | fastConnect
  | fastThrewDisconnect
  | fastAwait
  | fastDisconnect
  | fastRecord
  | reachabilityFilter
  | connect (skipped : Bool)
  | permissionRecord
  | permissionDisconnect
  | threwDisconnect (skipped : Bool)
  | threwRecord (skipped : Bool)
  | awaitOutcome (skipped : Bool)
  | skipDisconnect
  | skipRecord
  | configRecord (skipped : Bool)
  | busyRecord (skipped : Bool)
  | slotAwait (skipped : Bool)
  | slotDisconnect (skipped : Bool)
  | retryConnect (skipped : Bool)
  | retryThrewDisconnect (skipped : Bool)
  | retryAwait (skipped : Bool)
  | timeoutRecord (skipped : Bool)
  | errorRecord (skipped : Bool)
  | cleanupDisconnect (skipped : Bool) (outcome : AttemptOutcome)
  | postSlotAwait (skipped : Bool)
  | postSlotDisconnect (skipped : Bool)
  | abandonRecord
  | connectedRecord
  deriving DecidableEq, Repr

/-- Whether a cancelled run ends at this point. The others stand in `withContext(NonCancellable)`,
which does not look at the run when it is left. -/
def RunPoint.cancellable : RunPoint → Bool
  | fastThrewDisconnect | fastDisconnect | permissionRecord | threwDisconnect _
  | retryThrewDisconnect _ | connectedRecord => false
  | _ => true

/-- The suspension points of the continuation of a skip. -/
inductive SkipPoint
  | launched
  | disconnect
  | serverProvider
  | loadHistory
  deriving DecidableEq, Repr

/-- The suspension points of `onUnexpectedDisconnect`. -/
inductive ReconnectPoint
  | launched
  | settling (decided wakeAt : ℤ)
  deriving DecidableEq, Repr

/-- The suspension points of the network retry. -/
inductive RetryPoint
  | launched
  | polling (deadline wakeAt : ℤ)
  deriving DecidableEq, Repr

/-- The suspension points of the connected watcher. -/
inductive WatcherPoint
  | launched
  | sleeping (wakeAt : ℤ)
  deriving DecidableEq, Repr

/-- Where a coroutine of the controller is suspended. -/
inductive Point
  | run (at_ : RunPoint)
  | skip (at_ : SkipPoint)
  | reconnect (at_ : ReconnectPoint)
  | retry (at_ : RetryPoint)
  | watcher (at_ : WatcherPoint)
  deriving DecidableEq, Repr

/-- A run that the controller started by itself: the reconnect that did, with the time it was
decided, or the network retry. -/
structure AutoStart where
  reconnect : Option (ℕ × ℤ)
  time : ℤ
  deriving DecidableEq, Repr

/-- What is fixed when the controller is built: whether it has a `historySink` and a
`reachabilityFilter`. -/
structure Config where
  historySink : Bool := true
  reachabilityFilter : Bool := true
  deriving DecidableEq, Repr

/-- The fields of `AutoModeController` that decide what runs. Of the lists and servers it keeps,
only whether there are any is modelled. The last three fields are a record for the theorems and
are read by no code. -/
structure Controller where
  state : AutoModeState := .Disconnected
  scope : Scope Point := {}
  job : Option ℕ := none
  networkRetryJob : Option ℕ := none
  connectedWatcher : Option ℕ := none
  onTunnelLost : Bool := false
  skipRequested : Bool := false
  skipInFlight : Bool := false
  overrideServers : Bool := false
  pendingReconnectServer : Bool := false
  runOrigin : ConnectionOrigin := .AUTO_CONNECT
  reconnectTimestamps : List ℤ := []
  currentTimeMillis : ℤ := 0
  /-- The runs that have been launched. -/
  launches : ℕ := 0
  /-- The reconnects that the budget has admitted since it was last reset. -/
  decisions : List (ℕ × ℤ) := []
  /-- The automatic starts since the budget was last reset. -/
  autoStarts : List AutoStart := []

/-- What a coroutine or a call reads from outside while it takes a step. -/
structure Reading where
  /-- `priorities.isNotEmpty()` -/
  anyProtocol : Bool := true
  isNetworkAvailable : Bool := true
  isTunnelBusy : Bool := false
  isConnectingToAnotherServer : Bool := false
  autoReconnectEnabled : Bool := true
  /-- `all.isNotEmpty()` -/
  anyServer : Bool := true
  /-- `knownGoodFastTarget` finds one. -/
  fastTarget : Bool := false
  /-- `targets.isNotEmpty()` -/
  anyTarget : Bool := true
  /-- `servers.isNotEmpty()`, after the gate. -/
  anyReachable : Bool := true
  /-- The walk visits another server. -/
  moreServers : Bool := true
  /-- The server has another protocol. -/
  moreProtocols : Bool := false
  connect : ConnectReply := .returned
  outcome : AttemptOutcome := .TIMED_OUT
  isOwnTunnelEstablished : Bool := false
  slotReleased : Bool := true
  lastTeardownWasResolved : Bool := true
  /-- A skip finds an untried server. -/
  anyUntried : Bool := true
  /-- `remainingCandidates.isNotEmpty()` -/
  anyRemaining : Bool := false
  /-- `droppedServer != null` -/
  dropped : Bool := true
  /-- `GlobalVpnTracker` reports a connection. -/
  trackerConnected : Bool := true
  /-- `wd.onSample(now)`: no proof of life for too long. -/
  silent : Bool := false
  deriving DecidableEq, Repr

def RECONNECT_INITIAL_DELAY_MS : ℤ := 2000
def RECONNECT_MAX_ATTEMPTS : ℕ := 5
def RECONNECT_WINDOW_MS : ℤ := 10 * 60 * 1000
def NETWORK_RETRY_WINDOW_MS : ℤ := 10 * 60 * 1000
def NETWORK_RETRY_POLL_MS : ℤ := 2000

namespace Controller

/-- `setState`. -/
def setState (c : Controller) (s : AutoModeState) : Controller :=
  { c with state := s, skipInFlight := c.skipInFlight && s == .Connected }

/-- `isRunning`: the job of the run is active. -/
def isRunning (c : Controller) : Bool := c.scope.isActive c.job

/-- `scope.launch { runAutoMode() }` into `job`. -/
def launchRun (c : Controller) : Controller :=
  { c with scope := c.scope.launch (.run .launched), job := some c.scope.next,
           launches := c.launches + 1 }

/-- `startLocked`. -/
def startLocked (c : Controller) : Controller :=
  if c.isRunning then c
  else launchRun { c with scope := c.scope.cancel c.networkRetryJob, networkRetryJob := none }

/-- An exit of a run: it publishes an error and empties the slot. -/
def exit (c : Controller) (e : RunError) : Controller := { c.setState (.Error e) with job := none }

/-- `scheduleNetworkRetry`. It replaces a retry that is pending. -/
def scheduleNetworkRetry (w : Reading) (c : Controller) : Controller :=
  if !w.autoReconnectEnabled then c
  else { c with scope := (c.scope.cancel c.networkRetryJob).launch (.retry .launched),
                networkRetryJob := some c.scope.next }

/-- `startConnectedWatcher`. It replaces the watcher before it. -/
def startConnectedWatcher (c : Controller) : Controller :=
  { c with scope := (c.scope.cancel c.connectedWatcher).launch (.watcher .launched),
           connectedWatcher := some c.scope.next, onTunnelLost := true }

/-- `reportArmedTunnelLoss`. The reconnect is launched into no slot. -/
def reportArmedTunnelLoss (c : Controller) : Controller :=
  { c with scope := (c.scope.cancel c.connectedWatcher).launch (.reconnect .launched),
           connectedWatcher := none, onTunnelLost := false }

end Controller

open Controller

/-! ### A run -/

section Run

variable (cfg : Config) (w : Reading)

/-- `recordHistory`, which returns at once when there is no sink. -/
def record (c : Controller) (p : RunPoint) (rest : Controller × Option RunPoint) :
    Controller × Option RunPoint :=
  if cfg.historySink then (c, some p) else rest

/-- `publishConnected`. -/
def publishConnected (c : Controller) : Controller × Option RunPoint :=
  let c := startConnectedWatcher (c.setState .Connected)
  record cfg c .connectedRecord (c, none)

/-- The loop over the servers, from the end of a server to the next attempt. `cancelled` is what
`currentCoroutineContext().isActive` denies; when no server is left it is not consulted. -/
def walk (cancelled : Bool) (c : Controller) : Controller × Option RunPoint :=
  if !w.moreServers then (c.exit .ERROR_NO_SERVER, none)
  else if cancelled then (c, none)
  else if !w.isNetworkAvailable then (scheduleNetworkRetry w (c.exit .ERROR_NO_NETWORK), none)
  else ({ c with skipRequested := false }.setState .Connecting, some (.connect false))

/-- After the protocols of a server. -/
def afterProtocols (cancelled skipped : Bool) (c : Controller) : Controller × Option RunPoint :=
  if skipped then walk w cancelled c else record cfg c .abandonRecord (walk w cancelled c)

/-- The loop over the protocols, from the end of an attempt to the next one. -/
def nextProtocol (cancelled skipped : Bool) (c : Controller) : Controller × Option RunPoint :=
  if !w.moreProtocols then afterProtocols cfg w cancelled skipped c
  else if cancelled then (c, none)
  else (c.setState .Connecting, some (.connect skipped))

/-- The gate's survivors. -/
def ranked (cancelled : Bool) (c : Controller) : Controller × Option RunPoint :=
  if !w.anyReachable then (c.setState (.Error .ERROR_NO_SERVER), none) else walk w cancelled c

/-- The probe. -/
def probe (cancelled : Bool) (c : Controller) : Controller × Option RunPoint :=
  if cfg.reachabilityFilter && w.anyTarget then (c, some .reachabilityFilter)
  else ranked w cancelled c

/-- From the resolved list to the history. -/
def resolved (c : Controller) : Controller × Option RunPoint :=
  let taken := { c with overrideServers := false, pendingReconnectServer := false }
  if c.pendingReconnectServer && w.isTunnelBusy then (taken.setState .Disconnected, none)
  else if !w.anyServer then (taken.setState (.Error .emptyServerListMessage), none)
  else (taken, some (.loadHistory c.overrideServers c.pendingReconnectServer))

/-- The first lines of `runAutoMode`. -/
def begin_ (c : Controller) : Controller × Option RunPoint :=
  if !w.anyProtocol then (c.exit .ERROR_NO_ENABLED_PROTOCOL, none)
  else if !w.isNetworkAvailable then (scheduleNetworkRetry w (c.exit .ERROR_NO_NETWORK), none)
  else if c.overrideServers then resolved w c
  else (c, some .serverProvider)

/-- The ownership check and the branches after it. -/
def judged (skipped : Bool) (outcome : AttemptOutcome) (c : Controller) :
    Controller × Option RunPoint :=
  if w.isOwnTunnelEstablished then publishConnected cfg c
  else
    match outcome with
    | .TIMED_OUT =>
      record cfg c (.timeoutRecord skipped) (c, some (.cleanupDisconnect skipped outcome))
    | .NATIVE_ERROR =>
      record cfg c (.errorRecord skipped) (c, some (.cleanupDisconnect skipped outcome))
    | _ => (c, some (.cleanupDisconnect skipped outcome))

/-- The branch of a refused attempt, after its record. -/
def busy (skipped : Bool) (c : Controller) : Controller × Option RunPoint :=
  if w.isOwnTunnelEstablished then publishConnected cfg c else (c, some (.slotAwait skipped))

/-- An attempt whose outcome is known. -/
def attempted (skipped : Bool) (c : Controller) : Controller × Option RunPoint :=
  if c.skipRequested then ({ c with skipRequested := false }, some .skipDisconnect)
  else
    match w.outcome with
    | .TUNNEL_UP => publishConnected cfg c
    | .MISSING_CONFIG => record cfg c (.configRecord skipped) (nextProtocol cfg w false skipped c)
    | .NATIVE_BUSY => record cfg c (.busyRecord skipped) (busy cfg w skipped c)
    | outcome => judged cfg w skipped outcome c

/-- `runAutoMode` from one suspension point to the next, or to its end. -/
def runFrom (cancelled : Bool) (c : Controller) : RunPoint → Controller × Option RunPoint
  | .launched => begin_ w c
  | .serverProvider => resolved w c
  | .loadHistory wasOverride wasReconnect =>
    if c.runOrigin == .AUTO_CONNECT && !wasOverride && !wasReconnect && w.fastTarget then
      (c.setState .Connecting, some .fastConnect)
    else probe cfg w cancelled c
  | .fastConnect =>
    match w.connect with
    | .returned => (c, some .fastAwait)
    | _ => (c, some .fastThrewDisconnect)
  | .fastThrewDisconnect => ({ c with skipRequested := false }, some .fastDisconnect)
  | .fastAwait =>
    if !c.skipRequested && w.outcome == .TUNNEL_UP then publishConnected cfg c
    else ({ c with skipRequested := false }, some .fastDisconnect)
  | .fastDisconnect => record cfg c .fastRecord (probe cfg w cancelled c)
  | .fastRecord => probe cfg w cancelled c
  | .reachabilityFilter => ranked w cancelled c
  | .connect skipped =>
    match w.connect with
    | .returned => (c, some (.awaitOutcome skipped))
    | .VpnPermissionMissingException =>
      record cfg c .permissionRecord (c, some .permissionDisconnect)
    | .threw => (c, some (.threwDisconnect skipped))
  | .permissionRecord => (c, some .permissionDisconnect)
  | .permissionDisconnect => (c.exit .ERROR_VPN_PERMISSION, none)
  | .threwDisconnect skipped =>
    record cfg c (.threwRecord skipped) (nextProtocol cfg w cancelled skipped c)
  | .threwRecord skipped => nextProtocol cfg w cancelled skipped c
  | .awaitOutcome skipped => attempted cfg w skipped c
  | .skipDisconnect => record cfg c .skipRecord (nextProtocol cfg w cancelled true c)
  | .skipRecord => nextProtocol cfg w cancelled true c
  | .configRecord skipped => nextProtocol cfg w cancelled skipped c
  | .busyRecord skipped => busy cfg w skipped c
  | .slotAwait skipped =>
    if !w.slotReleased then (c, some (.slotDisconnect skipped))
    else if !w.lastTeardownWasResolved then nextProtocol cfg w cancelled skipped c
    else (c, some (.retryConnect skipped))
  | .slotDisconnect skipped => afterProtocols cfg w cancelled skipped c
  | .retryConnect skipped =>
    match w.connect with
    | .returned => (c, some (.retryAwait skipped))
    | .VpnPermissionMissingException => (c, some .permissionDisconnect)
    | .threw => (c, some (.retryThrewDisconnect skipped))
  | .retryThrewDisconnect skipped => nextProtocol cfg w cancelled skipped c
  | .retryAwait skipped =>
    if w.outcome == .TUNNEL_UP then publishConnected cfg c else judged cfg w skipped .NATIVE_BUSY c
  | .timeoutRecord skipped => (c, some (.cleanupDisconnect skipped .TIMED_OUT))
  | .errorRecord skipped => (c, some (.cleanupDisconnect skipped .NATIVE_ERROR))
  | .cleanupDisconnect skipped outcome =>
    if outcome == .NATIVE_ERROR then nextProtocol cfg w cancelled skipped c
    else (c, some (.postSlotAwait skipped))
  | .postSlotAwait skipped =>
    if w.slotReleased then nextProtocol cfg w cancelled skipped c
    else (c, some (.postSlotDisconnect skipped))
  | .postSlotDisconnect skipped => afterProtocols cfg w cancelled skipped c
  | .abandonRecord => walk w cancelled c
  | .connectedRecord => (c, none)

end Run

/-! ### The other coroutines -/

section Others

variable (w : Reading)

/-- The continuation that a skip launches, for an own tunnel or another one. -/
def skipFrom (c : Controller) : SkipPoint → Controller × Option SkipPoint
  | .launched => (c, some .disconnect)
  | .disconnect => (c, some (if c.overrideServers then .loadHistory else .serverProvider))
  | .serverProvider => (c, some .loadHistory)
  | .loadHistory =>
    if !w.anyUntried then (c.exit .ERROR_NO_MORE_UNTRIED, none)
    else if !c.skipInFlight then ({ c with job := none }, none)
    else (launchRun { c with overrideServers := true, runOrigin := .AUTO_CONNECT }, none)

/-- `reconnectTimestamps.removeAll { it < now - RECONNECT_WINDOW_MS }`. -/
def recent (now : ℤ) (timestamps : List ℤ) : List ℤ :=
  timestamps.filter fun t => !decide (t < now - RECONNECT_WINDOW_MS)

/-- `onUnexpectedDisconnect`, as the coroutine `i`. -/
def reconnectFrom (i : ℕ) (c : Controller) : ReconnectPoint → Controller × Option ReconnectPoint
  | .launched =>
    if w.isConnectingToAnotherServer then (c.setState .Disconnected, none)
    else if !w.autoReconnectEnabled then (c.setState .Disconnected, none)
    else
      let now := c.currentTimeMillis
      let kept := recent now c.reconnectTimestamps
      if RECONNECT_MAX_ATTEMPTS ≤ kept.length then
        ({ c with reconnectTimestamps := kept }.setState (.Error .ERROR_RECONNECT_LIMIT), none)
      else
        ({ c with reconnectTimestamps := kept ++ [now],
                  decisions := (i, now) :: c.decisions }.setState .Disconnected,
          some (.settling now (now + RECONNECT_INITIAL_DELAY_MS)))
  | .settling decided wakeAt =>
    if c.currentTimeMillis < wakeAt then (c, some (.settling decided wakeAt))
    else if w.isConnectingToAnotherServer then (c, none)
    else if c.isRunning then (c, none)
    else
      (startLocked { c with pendingReconnectServer := w.dropped,
                            overrideServers := w.dropped || w.anyRemaining,
                            runOrigin := .AUTO_RECONNECT,
                            autoStarts :=
                              ⟨some (i, decided), c.currentTimeMillis⟩ :: c.autoStarts },
        none)

/-- The coroutine of `scheduleNetworkRetry`. -/
def retryFrom (c : Controller) : RetryPoint → Controller × Option RetryPoint
  | .launched =>
    (c, some (.polling (c.currentTimeMillis + NETWORK_RETRY_WINDOW_MS)
      (c.currentTimeMillis + NETWORK_RETRY_POLL_MS)))
  | .polling deadline wakeAt =>
    if c.currentTimeMillis < wakeAt then (c, some (.polling deadline wakeAt))
    else if c.isRunning then (c, none)
    else if !w.isNetworkAvailable then
      if c.currentTimeMillis < deadline then
        (c, some (.polling deadline (c.currentTimeMillis + NETWORK_RETRY_POLL_MS)))
      else (c, none)
    else
      (startLocked { c with pendingReconnectServer := false, overrideServers := w.anyRemaining,
                            runOrigin := .AUTO_RECONNECT,
                            autoStarts := ⟨none, c.currentTimeMillis⟩ :: c.autoStarts }, none)

/-- The coroutine of `startConnectedWatcher`. -/
def watcherFrom (c : Controller) : WatcherPoint → Controller × Option WatcherPoint
  | .launched => (c, some (.sleeping (c.currentTimeMillis + 1000)))
  | .sleeping wakeAt =>
    if c.currentTimeMillis < wakeAt then (c, some (.sleeping wakeAt))
    else if c.state ≠ .Connected then (c, none)
    else if !w.trackerConnected || w.silent then (c.reportArmedTunnelLoss, none)
    else (c, some (.sleeping (c.currentTimeMillis + 1000)))

end Others

/-- The coroutine `i` goes on with a step that was computed for it. -/
def settleAt {π : Type} (i : ℕ) (kind : π → Point) (r : Controller × Option π) : Controller :=
  { r.1 with scope := r.1.scope.move i (r.2.map kind) }

/-- The coroutine `i` is resumed. Cancelled, it ends where it is suspended, unless that is a point
it may not be cancelled at. -/
def resume (cfg : Config) (i : ℕ) (w : Reading) (c : Controller) : Controller :=
  let job := c.scope.jobs i
  match job.point with
  | none => c
  | some (.run p) =>
    if job.cancelled && p.cancellable then { c with scope := c.scope.move i none }
    else settleAt i .run (runFrom cfg w job.cancelled c p)
  | some p =>
    if job.cancelled then { c with scope := c.scope.move i none }
    else
      match p with
      | .run _ => c
      | .skip p => settleAt i .skip (skipFrom w c p)
      | .reconnect p => settleAt i .reconnect (reconnectFrom w i c p)
      | .retry p => settleAt i .retry (retryFrom w c p)
      | .watcher p => settleAt i .watcher (watcherFrom w c p)

/-! ### The calls -/

namespace Controller

/-- What `stop` and `disconnectNow` clear in any case. -/
def disarm (c : Controller) : Controller :=
  { c with scope := (c.scope.cancel c.connectedWatcher).cancel c.networkRetryJob,
           connectedWatcher := none, networkRetryJob := none, onTunnelLost := false,
           skipRequested := false, skipInFlight := false, overrideServers := false,
           pendingReconnectServer := false }

/-- `job?.cancel(); job = null`, if a run is active. -/
def cancelRun (c : Controller) : Controller :=
  if c.isRunning then { c with scope := c.scope.cancel c.job, job := none } else c

/-- `stop`. -/
def stop (c : Controller) : Controller := c.disarm.cancelRun.setState .Disconnected

/-- `disconnectNow`, which differs from `stop` in the teardown it asks the adapter for. -/
def disconnectNow (c : Controller) : Controller := c.disarm.cancelRun.setState .Disconnected

/-- `resetReconnectBudget`. -/
def resetReconnectBudget (c : Controller) : Controller :=
  { c with reconnectTimestamps := [], pendingReconnectServer := false, decisions := [],
           autoStarts := [] }

/-- The branch of a press that starts a run. -/
def startFresh (c : Controller) : Controller :=
  startLocked { c.resetReconnectBudget with overrideServers := false, runOrigin := .AUTO_CONNECT }

/-- `onButtonPressed`. -/
def onButtonPressed (w : Reading) (c : Controller) : Controller :=
  match c.state with
  | .Disconnected | .Error _ => if w.isTunnelBusy then c else c.startFresh
  | .Connecting => c.stop
  | .Connected => c.disconnectNow

/-- The common part of a skip on an own tunnel and on another one: the continuation replaces the
run in `job`. -/
def launchSkip (c : Controller) : Controller :=
  { c with skipInFlight := true, onTunnelLost := false,
           scope := (c.scope.cancel c.job).launch (.skip .launched), job := some c.scope.next }

/-- The branch of a skip on an own tunnel. -/
def skipConnected (c : Controller) : Controller :=
  if c.skipInFlight then c
  else launchSkip { c with scope := c.scope.cancel c.connectedWatcher, connectedWatcher := none }

/-- `skipFromExternal`: a tunnel that the controller does not own. -/
def skipFromExternal (w : Reading) (c : Controller) : Controller :=
  if w.trackerConnected && !c.skipInFlight then c.launchSkip else c

/-- `skipToNextServer`. -/
def skipToNextServer (w : Reading) (c : Controller) : Controller :=
  match c.state with
  | .Connected => c.skipConnected
  | .Error _ => startLocked { c with overrideServers := w.anyRemaining }
  | .Connecting =>
    if c.isRunning then { c with skipRequested := true } else c.skipFromExternal w
  | .Disconnected => c.skipFromExternal w

/-- `TunnelStateWatcher.onTunnelLost?.invoke()`. -/
def tunnelLost (c : Controller) : Controller :=
  if c.onTunnelLost && c.state == .Connected then c.reportArmedTunnelLoss else c

end Controller

/-- What can happen to the controller. -/
inductive Event
  | press (w : Reading)
  | skip (w : Reading)
  | stop
  | disconnectNow
  | tunnelLost
  | resume (i : ℕ) (w : Reading)
  | tick (ms : ℕ)

/-- One event. -/
def step (cfg : Config) (c : Controller) : Event → Controller
  | .press w => c.onButtonPressed w
  | .skip w => c.skipToNextServer w
  | .stop => c.stop
  | .disconnectNow => c.disconnectNow
  | .tunnelLost => c.tunnelLost
  | .resume i w => resume cfg i w c
  | .tick ms => { c with currentTimeMillis := c.currentTimeMillis + ms }

end SoftEther.AutoMode
