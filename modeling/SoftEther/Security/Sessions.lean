import SoftEther.Controller.Flows
import SoftEther.Security.Fingerprint

namespace SoftEther.Security

open SoftEther.Controller

/-!
# Histories of sessions

The connects and reconnects of an app, one flow after another, over the store of pins and the
TLS links of every native connection.

* `ConnectionId`, `Link`, `Event` — a connection, a link of it, and what an observer sees;
* `Sessions` — the store, the controller that is alive and the links;
* `Answer`, `Action`, `Sessions.step` — what happens next.

The flows are those of the controller.  Between any two of their operations the TUN and receive
loops use the published handle, another thread runs `disconnect`, and the native side opens an
additional link.  A test of what other threads write is decided by the answer.  A connection that
was destroyed has no links.
-/

/-! ### Events -/

/-- What a handle stands for: a native connection, numbered by the calls of `nativeCreate`;
    `0` is none. -/
abbrev ConnectionId := ℕ

/-- A link of a connection: `index` is 0 for the primary link, and counts the additional ones. -/
structure Link where
  connection : ConnectionId
  index : ℕ
  deriving DecidableEq, Repr

/-- What others see of a session. -/
inductive Event
  /-- a TLS handshake with the endpoint completed; `presented` is the server's certificate -/
  | handshake (key : ServerKey) (link : Link) (presented : Option Digest)
  /-- the store was asked about the fingerprint that was presented -/
  | verified (key : ServerKey) (link : Link) (presented : Option Digest) (result : VerifyResult)
  /-- the state became `CONNECTED` -/
  | connected (connection : ConnectionId)
  /-- session data was sent -/
  | data (link : Link)
  /-- the pin was cleared -/
  | cleared (key : ServerKey)
  deriving DecidableEq

/-! ### State -/

/-- The controller, its pins and the connections that it made. -/
structure Sessions where
  store : Pins := fun _ => none
  /-- the endpoint and the options of the controller -/
  key : ServerKey
  config : ConnectionConfig
  /-- the last handle that `nativeCreate` gave -/
  last : ConnectionId := 0
  /-- the certificates of the links of a connection, the primary link first -/
  links : ConnectionId → List (Option Digest) := fun _ => []
  nativeHandle : ConnectionId := 0
  externalHandle : ConnectionId := 0
  /-- what is left of the flow, and its local variables -/
  todo : List Op := []
  created : ConnectionId := 0
  failed : Bool := false
  blocked : Bool := false

/-- What the outside answers to one operation. -/
structure Answer where
  /-- a test of the outside holds -/
  holds : Bool := false
  /-- the native call failed -/
  failed : Bool := false
  /-- the certificate of the handshake -/
  presented : Option Digest := none
  /-- the link that `softether_select_send_socket` chose -/
  link : ℕ := 0
  /-- the call goes on and sends again -/
  again : Bool := false

inductive Action
  /-- a new controller -/
  | controller (key : ServerKey) (config : ConnectionConfig)
  | start (entry : Entry)
  /-- the flow takes its next operation -/
  | advance (answer : Answer)
  /-- the TUN loop, or the receive loop, sends -/
  | forward (link : ℕ)
  /-- `softether_additional_connect` -/
  | additionalConnect (handle : ConnectionId) (presented : Option Digest)
  /-- `client.externalHandle = 0L` on another thread -/
  | clearExternalHandle
  /-- the native handle is claimed and destroyed on another thread -/
  | teardown
  | clear (key : ServerKey)

namespace Sessions

/-! ### Operations -/

/-- The connection that a flow reads. -/
def read (s : Sessions) : HandleSource → ConnectionId
  | .created => s.created
  | .nativeHandle => s.nativeHandle
  | .externalHandle => s.externalHandle

/-- The calls that send packets of the session. -/
def sends : NativeCall → Bool
  | .doDhcp | .sendSlice | .receiveBatch => true
  | _ => false

/-- A packet goes over the link, if the connection has it. -/
def send (s : Sessions) (handle : ConnectionId) (link : ℕ) : Option Event :=
  if link < (s.links handle).length then some (.data ⟨handle, link⟩) else none

/-- `claimAndDestroyNativeHandle`. -/
def destroy (s : Sessions) : Sessions :=
  { s with links := Function.update s.links s.nativeHandle [], nativeHandle := 0 }

/-- `nativeConnectWithHub`: the handshake of the primary link. -/
def connectWithHub (s : Sessions) (handle : ConnectionId) (answer : Answer) :
    Sessions × Option Event :=
  if handle = 0 ∨ answer.failed = true then ({ s with failed := true }, none)
  else
    ({ s with links := Function.update s.links handle [answer.presented], failed := false },
      some (.handshake s.key ⟨handle, 0⟩ answer.presented))

/-- What `client.getPeerFingerprint` finds on the primary link of a connection. -/
def peerFingerprint (s : Sessions) (handle : ConnectionId) (answer : Answer) : Option Digest :=
  if answer.failed = true then none else (s.links handle).head?.join

/-- `verifyTofuAfterHandshake`, for the connection that the flow created. -/
def verifyTofuAfterHandshake (s : Sessions) (handle : ConnectionId) (answer : Answer) :
    Sessions × Option Event :=
  ({ s with
      store := (s.store.verify s.key (presentedText (s.peerFingerprint handle answer))).1
      blocked :=
        (s.store.verify s.key (presentedText (s.peerFingerprint handle answer))).2.toDecision
          = .block },
    some (.verified s.key ⟨s.created, 0⟩ (s.peerFingerprint handle answer)
      (s.store.verify s.key (presentedText (s.peerFingerprint handle answer))).2))

/-- A native call on `handle`. -/
def call (s : Sessions) (handle : ConnectionId) (answer : Answer) (rest : List Op) :
    NativeCall → Sessions × Option Event
  | .connectWithHub => ({ s with todo := rest }).connectWithHub handle answer
  | .getPeerFingerprint => ({ s with todo := rest }).verifyTofuAfterHandshake handle answer
  | fn =>
    -- A call that sends again stays the next operation of the flow.
    ({ s with failed := answer.failed, todo := if sends fn && answer.again then s.todo else rest },
      if sends fn then s.send handle answer.link else none)

/-- The test of a condition. -/
def test (s : Sessions) (answer : Answer) : Cond → Bool
  | .noHandle => s.nativeHandle = 0
  | .noneCreated => s.created = 0
  | .failed => s.failed
  | .blocked => s.blocked
  -- What the other threads write, and the outside.
  | _ => answer.holds

/-- The flow performs its next operation; `rest` is what comes after it. -/
def perform (s : Sessions) (answer : Answer) (rest : List Op) : Op → Sessions × Option Event
  | .exitIf condition block =>
    ({ s with todo := if s.test answer condition then block else rest }, none)
  | .getAndSetReconnecting block | .incrementAttempts block | .tryLock block | .beginFlow block =>
    ({ s with todo := if answer.holds then block else rest }, none)
  | .create =>
    if answer.failed = true then ({ s with created := 0, nativeHandle := 0, todo := rest }, none)
    else
      ({ s with
          last := s.last + 1
          created := s.last + 1
          nativeHandle := s.last + 1
          todo := rest }, none)
  | .call fn source => s.call (s.read source) answer rest fn
  | .setExternalHandle => ({ s with externalHandle := s.nativeHandle, todo := rest }, none)
  | .write .clearExternalHandle => ({ s with externalHandle := 0, todo := rest }, none)
  | .write (.state .connected) => ({ s with todo := rest }, some (.connected s.created))
  | .claimAndDestroyNativeHandle | .requestTeardown => ({ s.destroy with todo := rest }, none)
  | .retry => ({ s with todo := connectTurn s.config }, none)
  -- The states that are not `CONNECTED`, and what other threads look at.
  | .write _ | .lock | .unlock | .exitFlow => ({ s with todo := rest }, none)

/-- The next operation of the flow under way. -/
def advance (s : Sessions) (answer : Answer) : Sessions × Option Event :=
  match s.todo with
  | [] => (s, none)
  | op :: rest => s.perform answer rest op

/-- `softether_additional_connect`: a handshake of its own, on a connection that is connected. -/
def additionalConnect (s : Sessions) (handle : ConnectionId) (presented : Option Digest) :
    Sessions × Option Event :=
  if s.links handle = [] then (s, none)
  else
    ({ s with links := Function.update s.links handle (s.links handle ++ [presented]) },
      some (.handshake s.key ⟨handle, (s.links handle).length⟩ presented))

/-! ### Steps -/

/-- One action. -/
def step (s : Sessions) : Action → Sessions × Option Event
  -- The flows exclude each other.
  | .controller key config =>
    (if s.todo.isEmpty then
      { s with
        key := key
        config := config
        nativeHandle := 0
        externalHandle := 0
        created := 0 }
    else s, none)
  | .start entry =>
    ({ s with todo := if s.todo.isEmpty then entry.program s.config else s.todo }, none)
  | .advance answer => s.advance answer
  | .forward link => (s, s.send s.externalHandle link)
  | .additionalConnect handle presented => s.additionalConnect handle presented
  | .clearExternalHandle => ({ s with externalHandle := 0 }, none)
  | .teardown => (s.destroy, none)
  | .clear key => ({ s with store := s.store.clear key }, some (.cleared key))

end Sessions

end SoftEther.Security
