import SoftEther.Lib.EventLog
import SoftEther.Packet.Dequeue

namespace SoftEther.Connection

open Lib SoftEther.Links SoftEther.Packet

/-!
# What a connection remembers of its session

The fields of `softether_connection_t` that a session fills in, next to the transport of
`Connect`: the login writes them, DHCP and ARP add the addresses, and the receive functions and
the choice of a link read them.

* `SessionFields` — these fields, with the values of `softether_create` as defaults;
* `SessionConn` — the connection with its session;
* `parseWelcome`, `establishSession`, `sessionConnect` — what a connect writes;
* `resolveGateway` — the gateway's address, learned from a frame of the queue;
* `sessionStep` — one call on the connection, with what a caller sees of it.

A session has a number, the number of connects that succeeded, which the code does not store; the
frames of the queue carry the number of the session they were received in.  `rudp_enabled` counts
only with a `rudp` context, which is in `Conn`.  DHCP reads the queue through
`softether_receive_raw`, so its reads are calls of their own here.
-/

/-! ### Fields -/

/-- The fields of the connection that belong to a session. -/
structure SessionFields where
  recvQueue : List QueuedFrame := []
  primaryDirection : ℕ := tcpDirectionBoth
  gatewayMac : List UInt8 := List.replicate 6 0
  gatewayMacResolved : Bool := false
  gatewayIp : UInt32 := 0
  assignedIp : UInt32 := 0
  sessionEstablished : Bool := false
  serverUseEncrypt : UInt32 := 0
  serverUseCompress : UInt32 := 0
  serverUseFastRc4 : UInt32 := 0
  useSslData : Bool := false
  serverMaxConnection : UInt32 := 0
  maxConnection : ℕ := 8
  deriving DecidableEq

/-- A connection with its session. -/
structure SessionConn where
  conn : Conn
  fields : SessionFields
  halfConnection : Bool
  session : ℕ

/-- `softether_create`. -/
def sessionCreate : SessionConn where
  conn := softetherCreate
  fields := {}
  halfConnection := false
  session := 0

namespace SessionConn

/-- The session is up. -/
def connected (s : SessionConn) : Bool := s.conn.state = .connected

/-- `softether_disconnect` writes none of the session's fields. -/
def disconnect (s : SessionConn) : SessionConn := { s with conn := softetherDisconnect s.conn }

/-- The value after `pack_get_int`, which writes only what it finds. -/
def packGetInt (answer : Option UInt32) (old : UInt32) : UInt32 := answer.getD old

end SessionConn

/-! ### The session part of a connect -/

/-- The fields of the Welcome PACK that are kept; `none` where it has no such element. -/
structure Welcome where
  maxConnection : Option UInt32 := none
  useEncrypt : Option UInt32 := none
  useCompress : Option UInt32 := none
  useFastRc4 : Option UInt32 := none
  halfConnection : Option UInt32 := none
  /-- the direction that the server gives the first additional connection is S2C -/
  firstIsS2C : Bool := false

/-- The end of `perform_authentication_http`, after a login that succeeded. -/
def parseWelcome (welcome : Welcome) (s : SessionConn) : SessionConn :=
  let f := { s.fields with
    serverMaxConnection := SessionConn.packGetInt welcome.maxConnection s.fields.serverMaxConnection
    serverUseEncrypt := SessionConn.packGetInt welcome.useEncrypt s.fields.serverUseEncrypt
    serverUseCompress := SessionConn.packGetInt welcome.useCompress s.fields.serverUseCompress
    serverUseFastRc4 := SessionConn.packGetInt welcome.useFastRc4 s.fields.serverUseFastRc4
    sessionEstablished := true }
  { s with
    fields := { f with useSslData := f.serverUseEncrypt ≠ 0 && f.serverUseFastRc4 = 0 }
    halfConnection := welcome.halfConnection.elim s.halfConnection (· ≠ 0) }

/-- The number of connections, clamped to what the server accepts. -/
def clampMaxConnection (usingNatT : Bool) (serverMax : UInt32) (maxConnection : ℕ) : ℕ :=
  if usingNatT then 1
  else
    min maxSeConnections
      (if 0 < serverMax.toNat ∧ serverMax.toNat < maxConnection then serverMax.toNat
      else maxConnection)

/-- The first additional connection is asked for only in half-connection mode. -/
def firstAdditional (halfConnection : Bool) (env : ConnectEnv) : ConnectEnv :=
  if halfConnection then env else { env with additional := none }

/-- `softether_establish_first_additional` found an S2C socket. -/
def firstAdditionalS2C (env : ConnectEnv) (welcome : Welcome) : Bool :=
  match env.additional with
  | some (tcp, ok) => tcp.ok && ok && welcome.firstIsS2C
  | none => false

/-- From `STATE_SESSION_SETUP` to the end of the connect. -/
def establishSession (s : SessionConn) (env : ConnectEnv) (welcome : Welcome) :
    SessionConn × Option ConnError :=
  let env := firstAdditional s.halfConnection env
  let fields := { s.fields with
    maxConnection :=
      clampMaxConnection s.conn.usingNatT s.fields.serverMaxConnection s.fields.maxConnection }
  match connectSession s.conn env with
  | (c, some e) => ({ s with conn := c, fields := fields }, some e)
  | (c, none) =>
    ({ s with
        conn := c
        fields :=
          if firstAdditionalS2C env welcome then
            { fields with primaryDirection := tcpDirectionClientToServer }
          else fields
        session := s.session + 1 },
      none)

/-- `softether_connect_with_hub`. -/
def sessionConnect (s : SessionConn) (env : ConnectEnv) (welcome : Welcome) :
    SessionConn × Option ConnError :=
  let c := connectStart s.conn
  if !env.resolved then ({ s with conn := { c with state := .disconnected } }, some .tcpConnect)
  else
    match connectTransport c env with
    | (c, some e) => ({ s with conn := c }, some e)
    | (c, none) =>
      if env.abortAfterRace then ({ s with conn := softetherDisconnect c }, some .timeout)
      else
        match connectLogin c env with
        | (c, some e) => ({ s with conn := softetherDisconnect c }, some e)
        | (c, none) =>
          let s := parseWelcome welcome { s with conn := c }
          if env.abortAfterLogin then (s.disconnect, some .timeout)
          else establishSession s env welcome

/-! ### Receiving -/

/-- The frames of a fill belong to the session that is running. -/
def tagged (session : ℕ) (fill : FillOutcome) : FillOutcome where
  rc := fill.rc
  frames := fill.frames.map fun e => { e with session := session }
  readBytes := fill.readBytes
  read_of_frames := fun h => fill.read_of_frames fun hnil => h (by rw [hnil]; rfl)

/-- The session with another receive queue. -/
def SessionConn.setQueue (s : SessionConn) (queue : List QueuedFrame) : SessionConn :=
  { s with fields := { s.fields with recvQueue := queue } }

/-- The sender's hardware address of an ARP reply for `ip`. -/
def arpReplySender (ip : UInt32) (frame : List UInt8) : Option (List UInt8) :=
  if 42 ≤ frame.length ∧ (frame.drop 12).take 2 = [0x08, 0x06] ∧
      (frame.drop 20).take 2 = [0x00, 0x02] ∧
      (frame.drop 28).take 4 = [(ip >>> 24).toUInt8, (ip >>> 16).toUInt8, (ip >>> 8).toUInt8,
        ip.toUInt8] then
    some ((frame.drop 22).take 6)
  else none

/-- The loop of `softether_resolve_gateway`: read frames until one is the reply.  The frames that
    it took from the queue are returned too. -/
def resolveLoop (ip : UInt32) : List FillOutcome → SessionConn → SessionConn × List QueuedFrame
  | [], s => (s, [])
  | fill :: fills, s =>
    let d := softetherReceiveRaw s.connected 2048 s.fields.recvQueue (tagged s.session fill)
    let s := s.setQueue d.queue
    match d.delivered.findSome? fun e => arpReplySender ip e.data with
    | some mac =>
      ({ s with fields := { s.fields with gatewayMac := mac, gatewayMacResolved := true } },
        d.delivered)
    | none =>
      let (s, more) := resolveLoop ip fills s
      (s, d.delivered ++ more)

/-- The reads that `softether_resolve_gateway` makes at most. -/
abbrev resolveAttempts : ℕ := 3 * 40

/-- `softether_resolve_gateway`. -/
def resolveGateway (ip : UInt32) (fills : List FillOutcome) (s : SessionConn) :
    SessionConn × List QueuedFrame :=
  if s.connected then
    resolveLoop ip (fills.take resolveAttempts)
      { s with fields := { s.fields with gatewayIp := ip } }
  else (s, [])

/-! ### Calls -/

/-- The calls on a session, and what the loops do in it. -/
inductive SessionAction
  | setMaxConnection (n : ℕ)
  | setHalfConnection (half : Bool)
  | connect (env : ConnectEnv) (welcome : Welcome)
  | disconnect
  | dhcpSucceeded (ip : UInt32)
  | resolveGateway (ip : UInt32) (fills : List FillOutcome)
  | receive (maxLen : ℕ) (fill : FillOutcome)
  | receiveRaw (maxLen : ℕ) (fill : FillOutcome)
  | receiveBatch (maxLen maxPackets : ℕ) (fill : FillOutcome)

/-- Whether the call is a connect. -/
def SessionAction.isConnect : SessionAction → Bool
  | .connect _ _ => true
  | _ => false

/-- What a call shows: the connection with which a session starts, the frames it returned and the
    session it ran in, or the connection that a disconnect left. -/
inductive SessionEvent
  | started (conn : SessionConn)
  | received (session : ℕ) (frames : List QueuedFrame)
  | disconnected (left : SessionConn)

/-- What a receive call leaves and shows. -/
def SessionConn.deliver (s : SessionConn) (d : Delivery) : SessionConn × Option SessionEvent :=
  (s.setQueue d.queue, some (.received s.session d.delivered))

/-- One action, and what it hands out. -/
def sessionStep (s : SessionConn) : SessionAction → SessionConn × Option SessionEvent
  | .setMaxConnection n =>
    ({ s with fields := { s.fields with maxConnection := max 1 (min maxSeConnections n) } }, none)
  | .setHalfConnection half => ({ s with halfConnection := half }, none)
  | .connect env welcome =>
    match sessionConnect s env welcome with
    | (s, some _) => (s, none)
    | (s, none) => (s, some (.started s))
  | .disconnect => (s.disconnect, some (.disconnected s.disconnect))
  | .dhcpSucceeded ip => ({ s with fields := { s.fields with assignedIp := ip } }, none)
  | .resolveGateway ip fills =>
    ((resolveGateway ip fills s).1, some (.received s.session (resolveGateway ip fills s).2))
  | .receive maxLen fill =>
    s.deliver (softetherReceive s.connected maxLen s.fields.recvQueue (tagged s.session fill))
  | .receiveRaw maxLen fill =>
    s.deliver (softetherReceiveRaw s.connected maxLen s.fields.recvQueue (tagged s.session fill))
  | .receiveBatch maxLen maxPackets fill =>
    s.deliver (softetherReceiveBatch s.connected maxLen maxPackets s.fields.recvQueue
      (tagged s.session fill))

/-- The runs of a fresh connection with what its callers saw. -/
abbrev sessionRun (as : List SessionAction) : Logged SessionConn SessionEvent :=
  run (logStep sessionStep) ⟨sessionCreate, []⟩ as

end SoftEther.Connection
