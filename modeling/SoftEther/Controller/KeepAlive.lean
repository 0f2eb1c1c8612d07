import SoftEther.Lib.JavaLong
import SoftEther.Packet.Dequeue

namespace SoftEther.Controller

open Lib SoftEther.Packet

/-!
# The receive loop and the dead-connection watchdog

One tunnel session: the receive loop of `startDataForwarding` and the loop of `startKeepalive`
share a `KeepAliveManager`, whose clock readings decide when a connection counts as dead.

* `KeepAliveManager` — the fields and methods of the class;
* `ReceiveCall`, `receiveBatch` — one native call, with what the fill inside it read;
* `Tunnel`, `tunnelStep` — the two loops, one pass at a time, in any order.

The tunnel also lists when bytes of the server were read and when the watchdog asked for a
reconnect; the code keeps neither.
-/

/-! ### `KeepAliveManager` -/

abbrev DEFAULT_INTERVAL_MS : ℤ := 60000
abbrev DEFAULT_TIMEOUT_MS : ℤ := 30000
abbrev MISSED_THRESHOLD : ℕ := 3

structure KeepAliveManager where
  intervalMs : ℤ := DEFAULT_INTERVAL_MS
  timeoutMs : ℤ := DEFAULT_TIMEOUT_MS
  lastSentTime : ℤ := 0
  lastReceivedTime : ℤ := 0
  missedCount : ℕ := 0
  isRunning : Bool := false

namespace KeepAliveManager

def setInterval (k : KeepAliveManager) (intervalMs : ℤ) : KeepAliveManager :=
  { k with intervalMs := intervalMs }

def setTimeout (k : KeepAliveManager) (timeoutMs : ℤ) : KeepAliveManager :=
  { k with timeoutMs := timeoutMs }

/-- `start`; a manager that runs is left alone. -/
def start (k : KeepAliveManager) (now : ℤ) : KeepAliveManager :=
  if k.isRunning then k
  else { k with isRunning := true, lastSentTime := now, lastReceivedTime := now, missedCount := 0 }

def stop (k : KeepAliveManager) : KeepAliveManager := { k with isRunning := false }

def shouldSendKeepAlive (k : KeepAliveManager) (now : ℤ) : Bool :=
  k.isRunning && decide (k.intervalMs ≤ longSub now k.lastSentTime)

def recordSent (k : KeepAliveManager) (now : ℤ) : KeepAliveManager := { k with lastSentTime := now }

def recordReceived (k : KeepAliveManager) (now : ℤ) : KeepAliveManager :=
  { k with lastReceivedTime := now, missedCount := 0 }

/-- The count of misses is part of the answer: asking changes it. -/
def isConnectionDead (k : KeepAliveManager) (now : ℤ) : KeepAliveManager × Bool :=
  if !k.isRunning then (k, false)
  else
    let missedCount :=
      if k.timeoutMs < longSub now k.lastReceivedTime then k.missedCount + 1 else k.missedCount
    ({ k with missedCount := missedCount }, decide (MISSED_THRESHOLD ≤ missedCount))

end KeepAliveManager

/-! ### One native receive call -/

/-- The packets that one call takes. -/
abbrev RX_BATCH_MAX_PACKETS : ℕ := 32

/-- The size of `receiveBuffer`. -/
abbrev receiveBufferSize : ℕ := 65535

/-- What a call of `client.receiveBatch` meets: a handle or none, the native state, what a fill
    brings, and whether the loop body throws afterwards. -/
structure ReceiveCall where
  hasHandle : Bool
  connected : Bool
  fill : FillOutcome
  throws : Bool

/-- `nativeReceiveBatch`; -1 without a handle. -/
def receiveBatch (queue : List QueuedFrame) (c : ReceiveCall) : Delivery :=
  if !c.hasHandle then ⟨-1, [], queue⟩
  else softetherReceiveBatch c.connected receiveBufferSize RX_BATCH_MAX_PACKETS queue c.fill

/-- The call reads the server's links only when it gets to the fill. -/
def ReceiveCall.readsBytes (c : ReceiveCall) (queue : List QueuedFrame) : Bool :=
  c.hasHandle && c.connected && queue.isEmpty && c.fill.readBytes

/-! ### The two loops -/

/-- The loop condition `isConnected() && !isCancelled.get()`. -/
structure LoopFlags where
  isConnected : Bool
  isCancelled : Bool

/-- A loop goes round again. -/
def LoopFlags.goesOn (f : LoopFlags) : Bool := f.isConnected && !f.isCancelled

/-- What `triggerReconnect` looks at. -/
structure ReconnectGuard where
  isCancelled : Bool
  isDestroyed : Bool
  isDisconnected : Bool
  reconnectJobActive : Bool

/-- Whether `triggerReconnect` launches a reconnect. -/
def ReconnectGuard.triggerReconnect (g : ReconnectGuard) : Bool :=
  !(g.isCancelled || g.isDestroyed || g.isDisconnected) && !g.reconnectJobActive

/-- Bytes of the server read in a call that returned at `time`; `recorded` when the call returned
    zero. -/
structure Reception where
  time : ℤ
  recorded : Bool

/-- A reconnect triggered by the watchdog, with the receptions before it. -/
structure Alarm where
  time : ℤ
  received : List Reception

/-- The two loops of a tunnel and what they share. -/
structure Tunnel where
  keepAlive : KeepAliveManager := {}
  recvQueue : List QueuedFrame := []
  receiving : Bool := true
  started : Bool := false
  watching : Bool := false
  clock : ℤ := 0
  received : List Reception := []
  alarms : List Alarm := []

/-- What happens to a tunnel. -/
inductive TunnelAction
  | startKeepalive (now keepAliveIntervalMs : ℤ)
  | receive (now : ℤ) (flags : LoopFlags) (call : ReceiveCall)
  | tick (now : ℤ) (flags : LoopFlags) (guard : ReconnectGuard)

/-- The clock reading of an action. -/
def TunnelAction.now : TunnelAction → ℤ
  | .startKeepalive now _ => now
  | .receive now _ _ => now
  | .tick now _ _ => now

/-- `startKeepalive`, which `startDataForwarding` calls once. -/
def startKeepalive (s : Tunnel) (now keepAliveIntervalMs : ℤ) : Tunnel :=
  if s.started then s
  else
    { s with
      keepAlive := ((s.keepAlive.setInterval keepAliveIntervalMs).setTimeout 10000).start now
      started := true
      watching := true }

/-- The receptions after a call that read bytes or did not. -/
def noteReception (received : List Reception) (now : ℤ) (readsBytes recorded : Bool) :
    List Reception :=
  if readsBytes then ⟨now, recorded⟩ :: received else received

/-- One pass of the receive loop. -/
def receivePass (s : Tunnel) (now : ℤ) (flags : LoopFlags) (call : ReceiveCall) : Tunnel :=
  if !s.receiving then s
  else if !flags.goesOn then { s with receiving := false }
  else
    let delivery := receiveBatch s.recvQueue call
    let received :=
      noteReception s.received now (call.readsBytes s.recvQueue) (decide (delivery.rc = 0))
    if delivery.rc > 0 then
      -- Data goes to the TUN interface; the watchdog is not told.
      { s with
        recvQueue := delivery.queue
        received := received
        receiving := !call.throws }
    else if delivery.rc = 0 then
      { s with
        recvQueue := delivery.queue
        received := received
        keepAlive := s.keepAlive.recordReceived now }
    else
      -- An error ends the loop, which asks for a reconnect itself.
      { s with recvQueue := delivery.queue, received := received, receiving := false }

/-- One pass of the watchdog loop. -/
def watchdogPass (s : Tunnel) (now : ℤ) (flags : LoopFlags) (guard : ReconnectGuard) : Tunnel :=
  if !s.watching then s
  else if !flags.goesOn then { s with watching := false, keepAlive := s.keepAlive.stop }
  else
    let keepAlive :=
      if s.keepAlive.shouldSendKeepAlive now then s.keepAlive.recordSent now else s.keepAlive
    let (keepAlive, dead) := keepAlive.isConnectionDead now
    if dead then
      { s with
        keepAlive := keepAlive.stop
        watching := false
        alarms := if guard.triggerReconnect then ⟨now, s.received⟩ :: s.alarms else s.alarms }
    else { s with keepAlive := keepAlive }

/-- One action. -/
def tunnelStep (s : Tunnel) (a : TunnelAction) : Tunnel :=
  match a with
  | .startKeepalive now keepAliveIntervalMs =>
    { startKeepalive s now keepAliveIntervalMs with clock := now }
  | .receive now flags call => { receivePass s now flags call with clock := now }
  | .tick now flags guard => { watchdogPass s now flags guard with clock := now }

end SoftEther.Controller
