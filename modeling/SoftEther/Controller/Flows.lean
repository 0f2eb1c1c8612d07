import Mathlib.Data.Int.Notation
import SoftEther.Native.HandleSlot

namespace SoftEther.Controller

open SoftEther.Native

/-!
# The flows of a connection controller

The functions of `ConnectionController` that run on different threads, as lists of small
operations: one read, one write, one test or one call each.

* `ConnectionState`, `ConnectionConfig`, `NativeCall` — the types the flows are about;
* `Cond`, `Write`, `Op` — a test, a write and an operation;
* `performConnect`, `connect`, `attemptReconnect`, `disconnect`, `destroyResources` — the flows;
* `onPacket`, `receiveLoop`, `stateMonitor`, `keepalive` — one turn of each loop;
* `Entry`, `Entry.program` — what a thread can be started on.

A block of an `exitIf` replaces the rest of the list: it is what runs between the exit and the
end of the thread, `catch` and `finally` included.  What the outside decides (the result of a
native call, the network, a cancelled `delay`, whether the service gives a TUN descriptor) is
`Cond.answer`.  Logging, statistics and the calls into the service are left
out, and so is `getAllSocketFds`, which reads a handle of the client that is always zero here.
-/

/-! ### Types -/

inductive ConnectionState
  | disconnected
  | connecting
  | tlsHandshake
  | protocolHandshake
  | authenticating
  | sessionSetup
  | connected
  | disconnecting
  | error
  deriving DecidableEq, Repr

/-- The options that decide which native calls a connect makes. -/
structure ConnectionConfig where
  udpPort : ℤ := 0
  udpOnly : Bool := false
  /-- `authMethod` is `AUTO` -/
  authAuto : Bool := true

/-- The native functions that take a handle, `nativeDestroy` excepted. -/
inductive NativeCall
  | setSocketProtector
  | setOption
  | setClientMac
  | setAuthType
  | setHalfConnection
  | setMaxConnection
  | connectWithHub
  | getPeerFingerprint
  | getSocketFd
  | getRudpSocketFd
  | getNatTUdpSocketFd
  | doDhcp
  | sendSlice
  | receiveBatch
  | getStats
  | getState
  | forceCloseSocket
  | disconnect
  deriving DecidableEq, Repr

/-- Where a caller reads the handle it calls with. -/
inductive HandleSource
  /-- its local variable `created` -/
  | created
  /-- the slot of the controller -/
  | nativeHandle
  /-- the field of the client -/
  | externalHandle
  deriving DecidableEq, Repr

/-! ### Operations -/

/-- What a flow tests. -/
inductive Cond
  /-- `isCancelled.get()` -/
  | cancelled
  /-- `nativeLifecycle.isDestroyed()` -/
  | destroyed
  /-- `nativeHandleSlot.isLost` -/
  | lost
  /-- `connectInFlight.get()` -/
  | inFlight
  /-- `nativeHandle == 0L` -/
  | noHandle
  /-- `created == 0L` -/
  | noneCreated
  | inState (state : ConnectionState)
  | notInState (state : ConnectionState)
  /-- neither `DISCONNECTED` nor `ERROR` -/
  | busy
  /-- `isRunning` of the TUN terminal is not set -/
  | tunStopped
  /-- there is no state monitor job -/
  | notMonitoring
  /-- the last native call failed, or was not made for want of a handle -/
  | failed
  /-- `verifyTofuAfterHandshake` answered `BLOCK` -/
  | blocked
  /-- the outside decides -/
  | answer
  deriving DecidableEq, Repr

inductive Write
  | cancelled (value : Bool)
  | reconnecting (value : Bool)
  | inFlight (value : Bool)
  | state (value : ConnectionState)
  /-- `SESSION_SETUP` unless `CONNECTED` -/
  | sessionSetup
  /-- `DISCONNECTING` if `CONNECTED` or `CONNECTING` -/
  | disconnecting
  /-- the state that the state monitor was told by the native side -/
  | mapped
  | clearExternalHandle
  | resetAttempts
  /-- `TunTerminal.start` and `TunTerminal.stop` -/
  | terminal (running : Bool)
  /-- `startNativeStateMonitor` and `stopNativeStateMonitor` -/
  | monitor (running : Bool)
  /-- `reconnectJob = scope.launch { … }`, unless it is active -/
  | launchReconnect
  /-- `reconnectJob?.cancel(); reconnectJob = null` -/
  | cancelReconnect
  /-- the job of `triggerReconnect` completes -/
  | completeReconnect
  /-- `scope.cancel()` -/
  | cancelScope
  deriving DecidableEq, Repr

inductive Op
  | exitIf (c : Cond) (block : List Op)
  | write (w : Write)
  /-- leave by the block if `isReconnecting.getAndSet(true)` was set -/
  | getAndSetReconnecting (block : List Op)
  /-- leave by the block if `reconnectAttempts.incrementAndGet()` is at its maximum -/
  | incrementAttempts (block : List Op)
  /-- `connectionMutex.lock()` -/
  | lock
  | tryLock (block : List Op)
  | unlock
  /-- `nativeLifecycle.beginFlow()`, leaving by the block if it refuses -/
  | beginFlow (block : List Op)
  /-- `flow.exit()` -/
  | exitFlow
  /-- `nativeCreate()`, `publishHandle(created)` and `nativeHandle = created` -/
  | create
  | call (fn : NativeCall) (source : HandleSource)
  /-- `client.externalHandle = nativeHandle` -/
  | setExternalHandle
  | claimAndDestroyNativeHandle
  /-- `nativeLifecycle.requestTeardown` -/
  | requestTeardown
  /-- the next turn of the loop in `connect` -/
  | retry

/-! ### The connect flow -/

def teardownNativeConnection : List Op :=
  [.write .clearExternalHandle, .claimAndDestroyNativeHandle]

/-- The `finally` of `performConnect`. -/
def leaveFlow : List Op := [.write (.inFlight false), .exitFlow]

/-- A `CancellationException` before the flow begins. -/
def giveUp : List Op := [.write (.cancelled true), .unlock]

/-- A `CancellationException` inside the flow. -/
def abandon : List Op := teardownNativeConnection ++ leaveFlow ++ [.unlock]

/-- The `catch (e: Exception)` of `connect`. -/
def connectFailed : List Op :=
  [.exitIf .cancelled [.unlock],
    -- The network was lost.
    .exitIf .answer [.write (.state .disconnected), .unlock],
    .incrementAttempts [.write (.state .disconnected), .unlock],
    -- The `delay` was cancelled.
    .exitIf .answer [.unlock],
    .retry]

/-- Any other exception inside the flow. -/
def fail : List Op := teardownNativeConnection ++ leaveFlow ++ connectFailed

/-- The calls of both flows between `nativeCreate` and `nativeConnectWithHub`. -/
def setAuthType (config : ConnectionConfig) : List Op :=
  if config.authAuto then [] else [.call .setAuthType .nativeHandle]

/-- `performConnectInner`: the options, the native connect, and what follows it. -/
def performConnectInner (config : ConnectionConfig) : List Op :=
  ([.exitIf .cancelled abandon,
    .call .setOption .nativeHandle,
    .call .setClientMac .nativeHandle] : List Op) ++
  (if config.udpPort > 0 then [.call .setOption .nativeHandle] else []) ++
  (if config.udpOnly then [.call .setOption .nativeHandle] else []) ++
  ([.write (.state .tlsHandshake)] : List Op) ++
  setAuthType config ++
  ([.write (.monitor true),
    .call .setHalfConnection .nativeHandle,
    .call .setMaxConnection .nativeHandle,
    .call .connectWithHub .nativeHandle,
    .write (.monitor false),
    .exitIf .cancelled abandon,
    .exitIf .failed (.write (.state .error) :: fail),
    .call .getPeerFingerprint .nativeHandle,
    .exitIf .blocked ([.write (.state .error), .write (.cancelled true)] ++ fail),
    .write .sessionSetup,
    .write .resetAttempts,
    .setExternalHandle,
    .exitIf .cancelled abandon,
    .call .getSocketFd .nativeHandle,
    .call .getRudpSocketFd .nativeHandle,
    .call .getNatTUdpSocketFd .nativeHandle,
    .call .doDhcp .nativeHandle,
    .exitIf .cancelled abandon,
    -- `installTun` throws.
    .exitIf .answer fail,
    .write (.state .connected),
    .write (.terminal true)] : List Op)

/-- `performConnect`, around the native part. -/
def performConnect (config : ConnectionConfig) : List Op :=
  ([.write (.state .connecting),
    .write (.cancelled false),
    .exitIf .destroyed giveUp,
    .beginFlow giveUp,
    .write (.inFlight true),
    .create,
    .exitIf .noneCreated fail,
    .call .setSocketProtector .created,
    .exitIf .failed fail] : List Op) ++
  performConnectInner config ++
  leaveFlow

/-- One turn of the loop in `connect`. -/
def connectTurn (config : ConnectionConfig) : List Op := performConnect config ++ [.unlock]

def connect : List Op :=
  [.exitIf .busy [],
    .lock,
    .exitIf .cancelled [.unlock],
    -- The network is not available.
    .exitIf .answer [.unlock],
    .exitIf .busy [.unlock],
    .write .resetAttempts,
    .retry]

/-! ### The reconnect flow -/

/-- `isCancelled.get() || nativeLifecycle.isDestroyed() || currentState == DISCONNECTED`. -/
def exitIfOver (block : List Op) : List Op :=
  [.exitIf .cancelled block, .exitIf .destroyed block, .exitIf (.inState .disconnected) block]

def triggerReconnect : List Op := exitIfOver [] ++ [.write .launchReconnect]

/-- The `finally` of the job that `triggerReconnect` launches. -/
def endReconnect : List Op := [.write (.reconnecting false), .write .completeReconnect]

/-- The `finally` of `attemptReconnect`. -/
def leaveReconnect : List Op := leaveFlow ++ [.write (.reconnecting false)] ++ endReconnect

/-- The `catch` of `attemptReconnect`. -/
def reconnectFailed : List Op :=
  [.claimAndDestroyNativeHandle, .write (.state .disconnected), .write .resetAttempts] ++
  leaveReconnect

/-- A reconnect that finds itself cancelled behind the native connect. -/
def reconnectOver : List Op := .claimAndDestroyNativeHandle :: leaveReconnect

/-- `attemptReconnect` from `installTun` on. -/
def reconnectInstall : List Op :=
  [.exitIf .answer reconnectFailed] ++
  exitIfOver reconnectOver ++
  [.write (.state .connected), .write (.terminal true), .write .resetAttempts] ++
  leaveReconnect

def attemptReconnect (config : ConnectionConfig) : List Op :=
  ([.exitIf .lost endReconnect] : List Op) ++
  exitIfOver endReconnect ++
  ([.getAndSetReconnecting endReconnect,
    .incrementAttempts
      ([.write (.state .error), .write .resetAttempts] ++ leaveReconnect)] : List Op) ++
  exitIfOver leaveReconnect ++
  ([.write (.cancelled false),
    .write (.terminal false),
    .claimAndDestroyNativeHandle] : List Op) ++
  exitIfOver leaveReconnect ++
  ([.write (.state .connecting),
    -- The `delay` was cancelled.
    .exitIf .answer reconnectFailed] : List Op) ++
  exitIfOver leaveReconnect ++
  ([.beginFlow leaveReconnect,
    .write (.inFlight true),
    .create,
    .exitIf .noneCreated reconnectFailed,
    .call .setSocketProtector .created,
    .exitIf .failed reconnectFailed,
    .call .setOption .nativeHandle] : List Op) ++
  setAuthType config ++
  ([.call .setHalfConnection .nativeHandle,
    .call .setMaxConnection .nativeHandle,
    .write (.monitor true),
    .call .connectWithHub .nativeHandle,
    .write (.monitor false),
    .exitIf .failed reconnectFailed,
    .call .getPeerFingerprint .nativeHandle,
    .exitIf .blocked
      ([.write (.state .error), .write (.cancelled true)] ++ reconnectOver)] : List Op) ++
  exitIfOver reconnectOver ++
  ([.call .getSocketFd .nativeHandle,
    .call .getRudpSocketFd .nativeHandle,
    .call .getNatTUdpSocketFd .nativeHandle,
    .setExternalHandle,
    .call .doDhcp .nativeHandle,
    -- Without a lease nothing is tested before `installTun`.
    .exitIf .failed reconnectInstall] : List Op) ++
  exitIfOver reconnectOver ++
  reconnectInstall

/-! ### The teardowns -/

/-- `disconnect` after the block of its mutex. -/
def stopForwarding : List Op :=
  [.write .cancelReconnect, .write (.terminal false), .write (.state .disconnected)]

def disconnect : List Op :=
  [.write (.cancelled true),
    .write .clearExternalHandle,
    .tryLock stopForwarding,
    .write .disconnecting,
    .exitIf .inFlight (.unlock :: stopForwarding),
    .exitIf .noHandle (.unlock :: stopForwarding)] ++
  teardownNativeConnection ++
  [.unlock] ++
  stopForwarding

def destroyResources : List Op :=
  [.write (.cancelled true),
    .write (.state .disconnected),
    .write .clearExternalHandle,
    .write .cancelReconnect,
    .write .cancelScope,
    .write (.terminal false),
    .requestTeardown]

/-! ### The loops -/

/-- A send or a receive failed. -/
def forwardingFailed : List Op :=
  [.exitIf (.notInState .connected) [], .exitIf .cancelled []] ++ triggerReconnect

/-- `maybePublishTrafficSnapshot`, when a second has passed. -/
def maybePublishTrafficSnapshot : List Op :=
  [.exitIf .answer [], .call .getStats .externalHandle]

/-- The callback of the TUN read loop. -/
def onPacket : List Op :=
  [.exitIf .tunStopped [],
    .call .sendSlice .externalHandle,
    .exitIf .failed forwardingFailed,
    -- Nothing was sent.
    .exitIf .answer []] ++
  maybePublishTrafficSnapshot

/-- The TUN read loop failed. -/
def onTunError : List Op := .exitIf .cancelled [] :: triggerReconnect

/-- One turn of the receive loop. -/
def receiveLoop : List Op :=
  [.exitIf (.notInState .connected) [],
    .exitIf .cancelled [],
    .call .receiveBatch .externalHandle,
    .exitIf .failed forwardingFailed,
    -- Nothing was received, or nothing written to the terminal.
    .exitIf .answer []] ++
  maybePublishTrafficSnapshot

/-- One turn of the loop that looks for a dead connection. -/
def keepalive : List Op :=
  [.exitIf (.notInState .connected) [],
    .exitIf .cancelled [],
    -- `isConnectionDead()` is false.
    .exitIf .answer []] ++
  triggerReconnect

/-- One turn of the state monitor. -/
def stateMonitor : List Op :=
  [.exitIf .notMonitoring [],
    .exitIf .cancelled [],
    .exitIf .noHandle [],
    .call .getState .nativeHandle,
    -- The state maps to nothing new, or the last one was broadcast a moment ago.
    .exitIf .answer [],
    .write .mapped]

/-! ### Entries -/

/-- The flows that a thread can enter. -/
inductive Entry
  | connect
  | attemptReconnect
  | disconnect
  | destroyResources
  | onPacket
  | onTunError
  | receiveLoop
  | keepalive
  | stateMonitor
  deriving DecidableEq, Repr

/-- The operations of a flow. -/
def Entry.program (config : ConnectionConfig) : Entry → List Op
  | .connect => Controller.connect
  | .attemptReconnect => Controller.attemptReconnect config
  | .disconnect => Controller.disconnect
  | .destroyResources => Controller.destroyResources
  | .onPacket => Controller.onPacket
  | .onTunError => Controller.onTunError
  | .receiveLoop => Controller.receiveLoop
  | .keepalive => Controller.keepalive
  | .stateMonitor => Controller.stateMonitor

end SoftEther.Controller
