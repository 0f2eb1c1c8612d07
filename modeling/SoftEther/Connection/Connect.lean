import SoftEther.Connection.Sockets
import SoftEther.Lib.Transition

namespace SoftEther.Connection

open Lib

/-!
# Connecting and disconnecting (`proto/softether_protocol.c`)

`softether_connect_with_hub`, `softether_disconnect` and `softether_destroy` on the fields
that hold the resources of a connection.

* pointers to TLS contexts are flags: `ssl_ctx` and `ssl` never point to different objects;
* what the system and the server answer is in `ConnectEnv`, one field for each question, in
  the order of the source;
* the connect mutex makes each call one step.

`connect_cleanup_iff` says which connects leave nothing behind when they fail.
-/

/-! ### Data -/

/-- `connection_state_t`. -/
inductive ConnState
  | disconnected
  | connecting
  | tlsHandshake
  | protocolHandshake
  | authenticating
  | sessionSetup
  | connected
  | disconnecting
  deriving DecidableEq, Repr

/-- The error codes other than `ERR_NONE`. -/
inductive ConnError
  | tcpConnect
  | tlsHandshake
  | protocolVersion
  | authentication
  | session
  | dataTransmission
  | timeout
  | unknown
  deriving DecidableEq, Repr

/-- The UDP acceleration context, as far as it holds a descriptor. -/
structure RudpSocket where
  udpFd : Option ℕ
  deriving DecidableEq, Repr

/-- What a connection holds: its state, descriptors and objects. -/
structure Conn where
  state : ConnState
  socketFd : Option ℕ
  sslCtx : Bool
  ssl : Bool
  natT : Option Transport
  usingNatT : Bool
  rudp : Option RudpSocket
  /-- the descriptors of the additional connections -/
  additional : List ℕ
  handles : Handles
  deriving DecidableEq, Repr

/-- `softether_create`. -/
def softetherCreate : Conn where
  state := .disconnected
  socketFd := none
  sslCtx := false
  ssl := false
  natT := none
  usingNatT := false
  rudp := none
  additional := []
  handles := Handles.empty

/-! ### Disconnecting -/

/-- Take the NAT-T transport and destroy it. -/
def destroyNatT (c : Conn) : Conn :=
  match c.natT with
  | none => c
  | some tr => { c with handles := rudpTransportDestroy c.handles tr, natT := none }

/-- Take the UDP acceleration context and destroy it. -/
def destroyRudp (c : Conn) : Conn :=
  match c.rudp with
  | none => c
  | some ctx => { c with handles := c.handles.close? ctx.udpFd, rudp := none }

/-- `softether_close_additional`. -/
def closeAdditional (c : Conn) : Conn :=
  { c with handles := c.handles.closeAll c.additional, additional := [] }

/-- Shut TLS down when both pointers are set. -/
def shutdownSsl (c : Conn) : Conn :=
  if c.ssl && c.sslCtx then { c with ssl := false, sslCtx := false } else c

/-- Close the primary socket. -/
def closeSocket (c : Conn) : Conn :=
  { c with handles := c.handles.close? c.socketFd, socketFd := none }

/-- `softether_disconnect`. -/
def softetherDisconnect (c : Conn) : Conn :=
  if c.state = .disconnected ∨ c.state = .disconnecting then c
  else
    let c := shutdownSsl (closeAdditional (closeSocket c))
    let c := destroyRudp { destroyNatT c with usingNatT := false }
    { c with state := .disconnected }

/-! ### The stages of a connect -/

/-- How a TLS handshake ends. -/
inductive TlsOutcome
  | noContext
  | failed (stalled : Bool)
  | ok
  deriving DecidableEq, Repr

/-- `perform_tls_handshake`. -/
def performTlsHandshake (c : Conn) (env : TlsOutcome) : Conn × Option ConnError :=
  if c.socketFd.isNone then (c, some .tlsHandshake)
  else
    let c := { c with state := .tlsHandshake }
    match env with
    | .noContext => (c, some .tlsHandshake)
    | .failed stalled =>
      ({ c with sslCtx := false }, some (if stalled then .timeout else .tlsHandshake))
    | .ok => ({ c with sslCtx := true, ssl := true }, none)

/-- What the login meets. -/
structure LoginEnv where
  /-- the VPNCONNECT watermark is sent and answered -/
  watermark : Bool
  /-- the socket of the UDP acceleration context, and its re-creation for an IPv6 server -/
  rudpSocket : UdpOutcome
  rudpFamily : Option UdpOutcome
  /-- the answer to the login PACK -/
  auth : Option ConnError

/-- `rudp_create` and `rudp_set_udp_family` before the login. -/
def loginRudp (c : Conn) (env : LoginEnv) : Conn :=
  match rudpCreateUdpSocket c.handles none env.rudpSocket with
  | (t, none) => { c with handles := t, rudp := none }
  | (t, some fd) =>
    match env.rudpFamily with
    | none => { c with handles := t, rudp := some ⟨some fd⟩ }
    | some family =>
      match rudpCreateUdpSocket t (some fd) family with
      | (t, none) => { c with handles := t, rudp := none }
      | (t, some fd) => { c with handles := t, rudp := some ⟨some fd⟩ }

/-- `softether_protocol_login`. -/
def softetherProtocolLogin (c : Conn) (useTcp : Bool) (env : LoginEnv) :
    Conn × Option ConnError :=
  if !(c.ssl && env.watermark) then (c, some .timeout)
  else
    let c := if !useTcp && !c.usingNatT then loginRudp c env else { c with rudp := none }
    ({ c with state := .authenticating }, env.auth)

/-- What a connect meets, and the settings that it reads. -/
structure ConnectEnv where
  resolved : Bool
  udpOnly : Bool
  forceNatT : Bool
  useTcp : Bool
  tcp : TcpEnv
  tls : TlsOutcome
  abortAfterTcp : Bool
  race : RaceEnv
  abortAfterRace : Bool
  login : LoginEnv
  natT : NatTEnv
  natTTls : TlsOutcome
  natTLogin : LoginEnv
  abortAfterLogin : Bool
  /-- `rudp_init_client` changes the address family of the socket -/
  rudpInit : Option UdpOutcome
  /-- with half connections, the first additional connection: its socket, and whether TLS
      and the additional login succeed -/
  additional : Option (TcpEnv × Bool)

/-- The start of a connect: a stale transport goes. -/
def connectStart (c : Conn) : Conn :=
  let c := if c.socketFd.isNone then destroyNatT c else c
  { c with usingNatT := false, state := .connecting }

/-- TCP and TLS; after a failed handshake the socket is closed. -/
def connectTcp (c : Conn) (env : ConnectEnv) : Conn × Bool :=
  match (if env.forceNatT then (c.handles, none) else tcpConnect c.handles env.tcp) with
  | (t, none) => ({ c with handles := t }, false)
  | (t, some fd) =>
    match performTlsHandshake { c with handles := t, socketFd := some fd } env.tls with
    | (c, none) => (c, true)
    | (c, some _) => (closeSocket c, false)

/-- The race, with the promotion of its winner: that has a descriptor and a TLS context,
    so the check behind the fallback race passes. -/
def connectRace (c : Conn) (env : RaceEnv) : Conn :=
  match connectParallelRace c.handles env with
  | (t, none) => { c with handles := t }
  | (t, some tr) =>
    { c with
      handles := t
      socketFd := some tr.appFd
      sslCtx := true
      ssl := true
      natT := some tr
      usingNatT := true }

/-- Up to the second look at the abort flag. A lost race is not reported: the login that
    follows has no TLS context. -/
def connectTransport (c : Conn) (env : ConnectEnv) : Conn × Option ConnError :=
  if env.udpOnly then (connectRace c env.race, none)
  else
    match connectTcp c env with
    | (c, ok) =>
      if env.abortAfterTcp then (softetherDisconnect c, some .timeout)
      else if ok then (c, none)
      else (connectRace (softetherDisconnect c) env.race, none)

/-- The login over the NAT-T transport. After a failed handshake the source disconnects and
    returns; its caller here disconnects once more, which does nothing. -/
def connectNatT (c : Conn) (env : ConnectEnv) : Conn × Option ConnError :=
  match tryNatTConnect c.handles env.natT with
  | (t, none) => ({ c with handles := t }, some .tcpConnect)
  | (t, some tr) =>
    let c := { c with
      handles := t
      natT := some tr
      usingNatT := true
      socketFd := some tr.appFd }
    match performTlsHandshake c env.natTTls with
    | (c, some e) => (softetherDisconnect c, some e)
    | (c, none) => softetherProtocolLogin c env.useTcp env.natTLogin

/-- The login, and its second try over NAT-T. -/
def connectLogin (c : Conn) (env : ConnectEnv) : Conn × Option ConnError :=
  match softetherProtocolLogin c env.useTcp env.login with
  | (c, none) => (c, none)
  | (c, some e) =>
    if c.usingNatT then (c, some e) else connectNatT (softetherDisconnect c) env

/-- `rudp_init_client`, when the context exists. -/
def connectRudp (c : Conn) (env : ConnectEnv) : Conn :=
  match c.rudp, env.rudpInit with
  | some ctx, some family =>
    if env.useTcp then c
    else
      match rudpCreateUdpSocket c.handles ctx.udpFd family with
      | (t, fd) => { c with handles := t, rudp := some ⟨fd⟩ }
  | _, _ => c

/-- `softether_establish_first_additional`: its failure is not an error. -/
def establishFirstAdditional (c : Conn) (env : Option (TcpEnv × Bool)) : Conn :=
  match env with
  | none => c
  | some (tcp, ok) =>
    match tcpConnect c.handles tcp with
    | (t, none) => { c with handles := t }
    | (t, some fd) =>
      if ok then { c with handles := t, additional := c.additional ++ [fd] }
      else { c with handles := t.close fd }

/-- The session. -/
def connectSession (c : Conn) (env : ConnectEnv) : Conn × Option ConnError :=
  let c := { connectRudp c env with state := .connected }
  if c.socketFd.isNone then (softetherDisconnect c, some .tcpConnect)
  else (establishFirstAdditional c env.additional, none)

/-- `softether_connect_with_hub`: the connection afterwards, and the error unless the
    result is `ERR_NONE`. -/
def softetherConnectWithHub (c : Conn) (env : ConnectEnv) : Conn × Option ConnError :=
  let c := connectStart c
  if !env.resolved then ({ c with state := .disconnected }, some .tcpConnect)
  else
    match connectTransport c env with
    | (c, some e) => (c, some e)
    | (c, none) =>
      if env.abortAfterRace then (softetherDisconnect c, some .timeout)
      else
        match connectLogin c env with
        | (c, some e) => (softetherDisconnect c, some e)
        | (c, none) =>
          if env.abortAfterLogin then (softetherDisconnect c, some .timeout)
          else connectSession c env

/-- `softether_destroy`, up to the release of the memory. -/
def softetherDestroy (c : Conn) : Conn :=
  let c := if c.state = .disconnected then c else softetherDisconnect c
  { destroyNatT c with usingNatT := false }

/-! ### Runs -/

/-- The calls on a connection. -/
inductive ConnAction
  | connect (env : ConnectEnv)
  | disconnect
  | destroy

/-- A connection, the error of the last connect if that was the last call, and whether the
    memory is released. -/
structure ConnSystem where
  conn : Conn
  error : Option ConnError
  freed : Bool

/-- The connection behind `softether_create`. -/
def connInit : ConnSystem where
  conn := softetherCreate
  error := none
  freed := false

/-- One call; a connection that is destroyed takes none. -/
def connStep (s : ConnSystem) (a : ConnAction) : ConnSystem :=
  if s.freed then s
  else
    match a with
    | .connect env =>
      match softetherConnectWithHub s.conn env with
      | (c, e) => { s with conn := c, error := e }
    | .disconnect => { s with conn := softetherDisconnect s.conn, error := none }
    | .destroy => { s with conn := softetherDestroy s.conn, error := none, freed := true }

/-! ### What a connection holds -/

/-- **No transport resource is held.** -/
structure Conn.Released (c : Conn) : Prop where
  socketFd : c.socketFd = none
  ssl : c.ssl = false
  natT : c.natT = none
  rudp : c.rudp = none

/-- The TLS pointers go together, and a call never ends in the middle of a disconnect. -/
structure Conn.Wf (c : Conn) : Prop where
  sslCtx : c.sslCtx = c.ssl
  state : c.state ≠ .disconnecting

/-- Being disconnected means that nothing is held. -/
structure Conn.Settled (c : Conn) : Prop extends Conn.Wf c where
  released : c.state = .disconnected → c.Released

variable {c : Conn} {env : ConnectEnv}

/-- **What a disconnect does**, past its check of the state. -/
theorem softetherDisconnect_released (h : c.Wf) (hstate : c.state ≠ .disconnected) :
    (softetherDisconnect c).Released ∧ (softetherDisconnect c).state = .disconnected ∧
      (softetherDisconnect c).sslCtx = false := by
  obtain ⟨state, socketFd, sslCtx, ssl, natT, usingNatT, rudp, additional, handles⟩ := c
  have hctx : sslCtx = ssl := h.sslCtx
  have hbusy : ¬ (state = .disconnected ∨ state = .disconnecting) := by
    rintro (rfl | rfl)
    · exact hstate rfl
    · exact h.state rfl
  subst hctx
  unfold softetherDisconnect
  rw [if_neg hbusy]
  cases sslCtx <;> cases natT <;> cases rudp <;> exact ⟨⟨rfl, rfl, rfl, rfl⟩, rfl, rfl⟩

/-- A disconnect settles a settled connection for good. -/
theorem Conn.Settled.disconnect (h : c.Settled) :
    (softetherDisconnect c).Settled ∧ (softetherDisconnect c).Released ∧
      (softetherDisconnect c).state = .disconnected := by
  by_cases hstate : c.state = .disconnected
  · have hsame : softetherDisconnect c = c := by
      unfold softetherDisconnect
      rw [if_pos (Or.inl hstate)]
    rw [hsame]
    exact ⟨h, h.released hstate, hstate⟩
  · obtain ⟨hrel, hdisc, hctx⟩ := softetherDisconnect_released h.toWf hstate
    refine ⟨⟨⟨?_, ?_⟩, fun _ => hrel⟩, hrel, hdisc⟩
    · rw [hctx, hrel.ssl]
    · rw [hdisc]
      decide

/-! ### The stages -/

/-- TCP and TLS come up. -/
def ConnectEnv.tcpUp (env : ConnectEnv) : Bool :=
  !env.forceNatT && env.tcp.ok && env.tls = .ok

/-- The fallback race runs. -/
def ConnectEnv.fallback (env : ConnectEnv) : Bool :=
  !env.udpOnly && !env.abortAfterTcp && !env.tcpUp

/-- **The connect leaks**: the fallback race is won and the login is not reached, because of
    an abort, or fails at the watermark. -/
def ConnectEnv.leaks (env : ConnectEnv) : Bool :=
  env.resolved && env.fallback && env.race.won &&
    (env.abortAfterRace || !env.login.watermark)

/-- A handshake leaves a well-formed connection in the handshake state. -/
theorem performTlsHandshake_spec (h : c.Wf) (hssl : c.ssl = false) (hfd : c.socketFd.isSome = true)
    (env : TlsOutcome) : (performTlsHandshake c env).1.Wf ∧
      (performTlsHandshake c env).1.state = .tlsHandshake ∧
      (performTlsHandshake c env).2.isNone = decide (env = .ok) := by
  obtain ⟨state, socketFd, sslCtx, ssl, natT, usingNatT, rudp, additional, handles⟩ := c
  have hctx : sslCtx = ssl := h.sslCtx
  dsimp only at hssl hfd
  subst hctx
  subst hssl
  obtain ⟨fd, rfl⟩ := Option.isSome_iff_exists.mp hfd
  cases env with
  | noContext => exact ⟨⟨rfl, nofun⟩, rfl, rfl⟩
  | failed stalled => exact ⟨⟨rfl, nofun⟩, rfl, rfl⟩
  | ok => exact ⟨⟨rfl, nofun⟩, rfl, rfl⟩

/-- A connect on a disconnected connection starts with nothing. -/
theorem connectStart_spec (h : c.Settled) (hstate : c.state = .disconnected) :
    (connectStart c).Wf ∧ (connectStart c).Released ∧ (connectStart c).state = .connecting := by
  obtain ⟨hfd, hssl, hnat, hrudp⟩ := h.released hstate
  have hsame : destroyNatT c = c := by
    rw [destroyNatT, hnat]
  unfold connectStart
  rw [hfd, Option.isNone_none, if_pos rfl, hsame]
  exact ⟨⟨h.sslCtx, nofun⟩, ⟨hfd, hssl, hnat, hrudp⟩, rfl⟩

/-- The TCP stage. -/
theorem connectTcp_spec (h : c.Wf) (hrel : c.Released) (hstate : c.state = .connecting)
    (env : ConnectEnv) : (connectTcp c env).1.Wf ∧ (connectTcp c env).1.state ≠ .disconnected ∧
      (connectTcp c env).2 = env.tcpUp := by
  have hsome := tcpConnect_isSome c.handles env.tcp
  have hne : c.state ≠ .disconnected := by
    rw [hstate]
    decide
  unfold connectTcp ConnectEnv.tcpUp
  cases env.forceNatT with
  | true => exact ⟨⟨h.sslCtx, h.state⟩, hne, rfl⟩
  | false =>
    cases htcp : tcpConnect c.handles env.tcp with
    | mk t fd =>
      rw [htcp] at hsome
      cases fd with
      | none =>
        rw [← hsome]
        exact ⟨⟨h.sslCtx, h.state⟩, hne, rfl⟩
      | some fd =>
        have htls := performTlsHandshake_spec (c := { c with handles := t, socketFd := some fd })
          ⟨h.sslCtx, h.state⟩ hrel.ssl rfl env.tls
        rw [← hsome]
        simp only [Bool.false_eq_true, if_false]
        cases hres : performTlsHandshake { c with handles := t, socketFd := some fd } env.tls with
        | mk c' err =>
          rw [hres] at htls
          obtain ⟨hwf, htlsState, hok⟩ := htls
          dsimp only at hwf htlsState hok
          have hshake : c'.state ≠ .disconnected := by
            rw [htlsState]
            decide
          cases err with
          | none => exact ⟨hwf, hshake, by simpa using hok⟩
          | some e => exact ⟨⟨hwf.sslCtx, hwf.state⟩, hshake, by simpa using hok⟩

/-- A lost race changes nothing but the table of handles. -/
theorem connectRace_lost {env : RaceEnv} (hlost : env.won = false) (c : Conn) :
    ∃ t, connectRace c env = { c with handles := t } := by
  have hsome := connectParallelRace_isSome c.handles env
  unfold connectRace
  cases hres : connectParallelRace c.handles env with
  | mk t tr =>
    rw [hres, hlost] at hsome
    cases tr with
    | none => exact ⟨t, rfl⟩
    | some tr => exact absurd hsome (by simp)

/-- The winner of a race is promoted, whatever the state is. -/
theorem connectRace_won {env : RaceEnv} (hwon : env.won = true) (h : c.Wf) :
    (connectRace c env).Wf ∧ (connectRace c env).state = c.state ∧
      (connectRace c env).ssl = true ∧ (connectRace c env).usingNatT = true := by
  have hsome := connectParallelRace_isSome c.handles env
  unfold connectRace
  cases hres : connectParallelRace c.handles env with
  | mk t tr =>
    rw [hres, hwon] at hsome
    cases tr with
    | none => exact absurd hsome (by simp)
    | some tr => exact ⟨⟨rfl, h.state⟩, rfl, rfl, rfl⟩

/-- **A transport without a state**: resources were installed after the disconnect. -/
structure Conn.Late (c : Conn) : Prop extends Conn.Wf c where
  disconnected : c.state = .disconnected
  ssl : c.ssl = true
  usingNatT : c.usingNatT = true

theorem Conn.Wf.settled (h : c.Wf) (hstate : c.state ≠ .disconnected) : c.Settled where
  toWf := h
  released := fun hdisc => absurd hdisc hstate

/-- A race that is run in a busy state, or lost, leaves the connection settled. -/
theorem connectRace_settled (h : c.Settled) {env : RaceEnv}
    (hok : c.state ≠ .disconnected ∨ env.won = false) : (connectRace c env).Settled := by
  cases hwon : env.won with
  | false =>
    obtain ⟨t, ht⟩ := connectRace_lost hwon c
    rw [ht]
    exact ⟨⟨h.sslCtx, h.state⟩, fun hdisc =>
      ⟨(h.released hdisc).socketFd, (h.released hdisc).ssl, (h.released hdisc).natT,
        (h.released hdisc).rudp⟩⟩
  | true =>
    obtain ⟨hwf, hstate, -, -⟩ := connectRace_won hwon h.toWf
    rw [hwon] at hok
    exact hwf.settled (by rw [hstate]; exact hok.resolve_right (by simp))

/-- **The transport stage.** -/
theorem connectTransport_spec (h : c.Wf) (hrel : c.Released) (hstate : c.state = .connecting)
    (env : ConnectEnv) : (∀ e, (connectTransport c env).2 = some e →
        env.fallback = false ∧ (connectTransport c env).1.Settled ∧
          (connectTransport c env).1.Released ∧
          (connectTransport c env).1.state = .disconnected) ∧
      ((env.fallback && env.race.won) = false → (connectTransport c env).1.Settled) ∧
      ((env.fallback && env.race.won) = true →
        (connectTransport c env).2 = none ∧ (connectTransport c env).1.Late) := by
  have hbusy : c.state ≠ .disconnected := by
    rw [hstate]
    decide
  unfold connectTransport
  cases hudp : env.udpOnly with
  | true =>
    have hfallback : env.fallback = false := by simp [ConnectEnv.fallback, hudp]
    rw [hfallback]
    exact ⟨nofun, fun _ => connectRace_settled (h.settled hbusy) (Or.inl hbusy), nofun⟩
  | false =>
    obtain ⟨hwf, htcp, hok⟩ := connectTcp_spec h hrel hstate env
    have hsettled := hwf.settled htcp
    simp only [Bool.false_eq_true, if_false]
    cases hres : connectTcp c env with
    | mk c' ok =>
      rw [hres] at hsettled hok htcp
      dsimp only at hsettled hok htcp ⊢
      cases habort : env.abortAfterTcp with
      | true =>
        have hfallback : env.fallback = false := by simp [ConnectEnv.fallback, habort]
        rw [hfallback]
        obtain ⟨hdset, hdrel, hdstate⟩ := hsettled.disconnect
        exact ⟨fun _ _ => ⟨rfl, hdset, hdrel, hdstate⟩, fun _ => hdset, nofun⟩
      | false =>
        cases ok with
        | true =>
          have hfallback : env.fallback = false := by simp [ConnectEnv.fallback, ← hok]
          rw [hfallback]
          exact ⟨nofun, fun _ => hsettled, nofun⟩
        | false =>
          have hfallback : env.fallback = true := by
            simp [ConnectEnv.fallback, ← hok, hudp, habort]
          rw [hfallback]
          obtain ⟨hdset, hdrel, hdstate⟩ := hsettled.disconnect
          refine ⟨nofun, fun hlost => connectRace_settled hdset (Or.inr hlost), fun hwon => ?_⟩
          obtain ⟨hrwf, hrstate, hrssl, hrnat⟩ := connectRace_won hwon hdset.toWf
          exact ⟨rfl, hrwf, hrstate.trans hdstate, hrssl, hrnat⟩

/-- **The login** either does nothing or ends in the state `AUTHENTICATING`. -/
theorem softetherProtocolLogin_spec (h : c.Wf) (useTcp : Bool) (env : LoginEnv) :
    ((c.ssl && env.watermark) = false →
        softetherProtocolLogin c useTcp env = (c, some .timeout)) ∧
      ((c.ssl && env.watermark) = true →
        (softetherProtocolLogin c useTcp env).1.Wf ∧
          (softetherProtocolLogin c useTcp env).1.state = .authenticating ∧
          (softetherProtocolLogin c useTcp env).2 = env.auth) := by
  unfold softetherProtocolLogin
  refine ⟨fun hno => by rw [hno]; rfl, fun hyes => ?_⟩
  rw [hyes]
  have hrudp : (loginRudp c env).sslCtx = c.sslCtx ∧ (loginRudp c env).ssl = c.ssl := by
    unfold loginRudp
    split
    · exact ⟨rfl, rfl⟩
    · split
      · exact ⟨rfl, rfl⟩
      · split <;> exact ⟨rfl, rfl⟩
  cases hmode : !useTcp && !c.usingNatT with
  | true => exact ⟨⟨hrudp.1.trans (h.sslCtx.trans hrudp.2.symm), nofun⟩, rfl, rfl⟩
  | false => exact ⟨⟨h.sslCtx, nofun⟩, rfl, rfl⟩

/-- A login on a settled connection. -/
theorem Conn.Settled.login (h : c.Settled) (useTcp : Bool) (env : LoginEnv) :
    (softetherProtocolLogin c useTcp env).1.Settled ∧
      ((softetherProtocolLogin c useTcp env).2 = none →
        (softetherProtocolLogin c useTcp env).1.state = .authenticating) := by
  obtain ⟨hno, hyes⟩ := softetherProtocolLogin_spec h.toWf useTcp env
  cases hmark : c.ssl && env.watermark with
  | false =>
    rw [hno hmark]
    exact ⟨h, nofun⟩
  | true =>
    obtain ⟨hwf, hstate, -⟩ := hyes hmark
    exact ⟨hwf.settled (by rw [hstate]; decide), fun _ => hstate⟩

/-- The second try over NAT-T starts disconnected and ends settled. -/
theorem connectNatT_spec (h : c.Settled) (hrel : c.Released) (env : ConnectEnv) :
    (connectNatT c env).1.Settled ∧
      ((connectNatT c env).2 = none → (connectNatT c env).1.state = .authenticating) := by
  unfold connectNatT
  cases hnat : tryNatTConnect c.handles env.natT with
  | mk t tr =>
    cases tr with
    | none =>
      exact ⟨⟨⟨h.sslCtx, h.state⟩, fun _ => ⟨hrel.socketFd, hrel.ssl, hrel.natT, hrel.rudp⟩⟩,
        nofun⟩
    | some tr =>
      have htls := performTlsHandshake_spec
        (c := { c with
          handles := t, natT := some tr, usingNatT := true, socketFd := some tr.appFd })
        ⟨h.sslCtx, h.state⟩ hrel.ssl rfl env.natTTls
      dsimp only
      generalize performTlsHandshake _ env.natTTls = res at htls
      obtain ⟨c', err⟩ := res
      obtain ⟨hwf, hstate, -⟩ := htls
      dsimp only at hwf hstate
      -- the handshake state makes the disconnect effective
      have hsettled : c'.Settled := hwf.settled (by rw [hstate]; decide)
      cases err with
      | none => exact hsettled.login env.useTcp env.natTLogin
      | some e => exact ⟨hsettled.disconnect.1, nofun⟩

/-- **The login stage** on a settled connection, or on a late one whose watermark is
    answered. -/
theorem connectLogin_spec (env : ConnectEnv)
    (h : c.Settled ∨ (c.Late ∧ env.login.watermark = true)) : (connectLogin c env).1.Settled ∧
      ((connectLogin c env).2 = none → (connectLogin c env).1.state = .authenticating) := by
  have hlogin : (softetherProtocolLogin c env.useTcp env.login).1.Settled ∧
      ((softetherProtocolLogin c env.useTcp env.login).2 = none →
        (softetherProtocolLogin c env.useTcp env.login).1.state = .authenticating) := by
    rcases h with h | ⟨h, hmark⟩
    · exact h.login env.useTcp env.login
    · obtain ⟨-, hyes⟩ := softetherProtocolLogin_spec h.toWf env.useTcp env.login
      obtain ⟨hwf, hstate, -⟩ := hyes (by rw [h.ssl, hmark]; rfl)
      exact ⟨hwf.settled (by rw [hstate]; decide), fun _ => hstate⟩
  unfold connectLogin
  generalize softetherProtocolLogin c env.useTcp env.login = res at hlogin
  obtain ⟨c', err⟩ := res
  obtain ⟨hsettled, hauth⟩ := hlogin
  cases err with
  | none => exact ⟨hsettled, hauth⟩
  | some e =>
    dsimp only
    split
    · exact ⟨hsettled, nofun⟩
    · obtain ⟨hdset, hdrel, -⟩ := hsettled.disconnect
      exact connectNatT_spec hdset hdrel env

/-- On a late connection a failed watermark ends the login, with everything still held. -/
theorem connectLogin_late (h : c.Late) (hmark : env.login.watermark = false) :
    connectLogin c env = (c, some .timeout) := by
  obtain ⟨hno, -⟩ := softetherProtocolLogin_spec h.toWf env.useTcp env.login
  unfold connectLogin
  rw [hno (by rw [hmark, Bool.and_false])]
  dsimp only
  rw [h.usingNatT, if_pos rfl]

/-- The last stage ends connected, or disconnected with an error. -/
theorem connectSession_spec (h : c.Wf) (env : ConnectEnv) : (connectSession c env).1.Settled ∧
      ((connectSession c env).2 = none → (connectSession c env).1.state = .connected) ∧
      ((connectSession c env).2 ≠ none → (connectSession c env).1.state = .disconnected) := by
  have hrudp : (connectRudp c env).sslCtx = c.sslCtx ∧ (connectRudp c env).ssl = c.ssl := by
    unfold connectRudp
    split
    · split <;> exact ⟨rfl, rfl⟩
    · exact ⟨rfl, rfl⟩
  have hwf : Conn.Wf { connectRudp c env with state := .connected } :=
    ⟨hrudp.1.trans (h.sslCtx.trans hrudp.2.symm), nofun⟩
  have hsettled := hwf.settled nofun
  unfold connectSession
  dsimp only
  split
  · obtain ⟨hdset, -, hdstate⟩ := hsettled.disconnect
    exact ⟨hdset, nofun, fun _ => hdstate⟩
  · unfold establishFirstAdditional
    split
    · exact ⟨hsettled, fun _ => rfl, fun hne => absurd rfl hne⟩
    · split
      · exact ⟨⟨⟨hwf.sslCtx, nofun⟩, nofun⟩, fun _ => rfl, fun hne => absurd rfl hne⟩
      · split <;>
          exact ⟨⟨⟨hwf.sslCtx, nofun⟩, nofun⟩, fun _ => rfl, fun hne => absurd rfl hne⟩

/-! ### Failed connects -/

/-- **A connect on a disconnected connection** that does not leak: it ends settled, and
    disconnected if it fails. -/
theorem connect_settled (h : c.Settled) (hstate : c.state = .disconnected)
    (hleak : env.leaks = false) : (softetherConnectWithHub c env).1.Settled ∧
      ((softetherConnectWithHub c env).2 ≠ none →
        (softetherConnectWithHub c env).1.state = .disconnected) := by
  obtain ⟨hwf, hrel, hbusy⟩ := connectStart_spec h hstate
  unfold softetherConnectWithHub
  cases hres : env.resolved with
  | false =>
    exact ⟨⟨⟨hwf.sslCtx, nofun⟩, fun _ => ⟨hrel.socketFd, hrel.ssl, hrel.natT, hrel.rudp⟩⟩,
      fun _ => rfl⟩
  | true =>
    obtain ⟨habort, hset, hlate⟩ := connectTransport_spec hwf hrel hbusy env
    rw [ConnectEnv.leaks, hres, Bool.true_and] at hleak
    dsimp only
    rw [Bool.not_true, if_neg (by simp)]
    generalize connectTransport (connectStart c) env = res at habort hset hlate
    obtain ⟨c', err⟩ := res
    cases err with
    | some e =>
      obtain ⟨-, hdset, -, hdstate⟩ := habort e rfl
      exact ⟨hdset, fun _ => hdstate⟩
    | none =>
      dsimp only at hset hlate ⊢
      -- unless the fallback race was won, the connection is settled here
      have hcase : c'.Settled ∨ (c'.Late ∧ env.abortAfterRace = false ∧
          env.login.watermark = true) := by
        cases hwon : env.fallback && env.race.won with
        | false => exact Or.inl (hset hwon)
        | true =>
          rw [hwon, Bool.true_and, Bool.or_eq_false_iff, Bool.not_eq_false'] at hleak
          exact Or.inr ⟨(hlate hwon).2, hleak⟩
      cases habort2 : env.abortAfterRace with
      | true =>
        rcases hcase with hsettled | ⟨-, hno, -⟩
        · obtain ⟨hdset, -, hdstate⟩ := hsettled.disconnect
          exact ⟨hdset, fun _ => hdstate⟩
        · rw [habort2] at hno
          exact absurd hno (by simp)
      | false =>
        obtain ⟨hlset, hauth⟩ := connectLogin_spec env
          (hcase.imp id (fun hl => ⟨hl.1, hl.2.2⟩))
        rw [if_neg (by simp)]
        generalize connectLogin c' env = res at hlset hauth
        obtain ⟨c'', err⟩ := res
        have hdisc := hlset.disconnect
        cases err with
        | some e => exact ⟨hdisc.1, fun _ => hdisc.2.2⟩
        | none =>
          dsimp only
          split
          · exact ⟨hdisc.1, fun _ => hdisc.2.2⟩
          · obtain ⟨hsset, -, hserr⟩ := connectSession_spec hlset.toWf env
            exact ⟨hsset, hserr⟩

/-- **A connect that leaks** fails, ends disconnected, and still has its TLS context. -/
theorem connect_leaks (h : c.Settled) (hstate : c.state = .disconnected)
    (hleak : env.leaks = true) : (softetherConnectWithHub c env).2 = some .timeout ∧
      (softetherConnectWithHub c env).1.Late := by
  obtain ⟨hwf, hrel, hbusy⟩ := connectStart_spec h hstate
  obtain ⟨-, -, hlate⟩ := connectTransport_spec hwf hrel hbusy env
  simp only [ConnectEnv.leaks, Bool.and_eq_true] at hleak
  obtain ⟨⟨⟨hres, hfallback⟩, hwon⟩, hend⟩ := hleak
  obtain ⟨hnone, hl⟩ := hlate (by rw [hfallback, hwon]; rfl)
  -- the disconnects after the race return at once, and so does the login
  have hkeep : softetherDisconnect (connectTransport (connectStart c) env).1 =
      (connectTransport (connectStart c) env).1 := by
    unfold softetherDisconnect
    rw [if_pos (Or.inl hl.disconnected)]
  unfold softetherConnectWithHub
  dsimp only
  rw [hres, Bool.not_true, if_neg (by simp)]
  generalize connectTransport (connectStart c) env = res at hnone hl hkeep
  obtain ⟨c', err⟩ := res
  dsimp only at hnone hl hkeep
  subst hnone
  dsimp only
  cases habort : env.abortAfterRace with
  | true =>
    rw [if_pos rfl, hkeep]
    exact ⟨rfl, hl⟩
  | false =>
    have hmark : env.login.watermark = false := by simpa [habort] using hend
    rw [if_neg (by simp), connectLogin_late hl hmark]
    dsimp only
    rw [hkeep]
    exact ⟨rfl, hl⟩

/-! ### Runs -/

/-- A connect is made on a disconnected connection, as `softether_reconnect` does. -/
def StartsDisconnected (s : ConnSystem) : ConnAction → Prop
  | .connect _ => s.freed = false → s.conn.state = .disconnected
  | .disconnect => True
  | .destroy => True

/-- No connect leaks. -/
def KeepsTidy (s : ConnSystem) : ConnAction → Prop
  | .connect env => s.freed = false → env.leaks = false
  | .disconnect => True
  | .destroy => True

/-- **A failed connect leaves no resources behind**, and neither does any other call that
    ends disconnected. -/
structure Tidy (s : ConnSystem) : Prop where
  failed : s.freed = false → s.error ≠ none → s.conn.state = .disconnected ∧ s.conn.Released
  disconnected : s.freed = false → s.conn.state = .disconnected → s.conn.Released

/-- **When a call keeps the connection tidy.** -/
theorem connStep_tidy_iff {s : ConnSystem} (hwf : s.freed = false → s.conn.Wf) (htidy : Tidy s)
    {a : ConnAction} (hstart : StartsDisconnected s a) :
    Tidy (connStep s a) ↔ KeepsTidy s a := by
  unfold connStep
  cases hs : s.freed with
  | true =>
    rw [if_pos rfl]
    refine iff_of_true htidy ?_
    cases a with
    | connect env => exact fun hno => absurd (hs.symm.trans hno) (by simp)
    | disconnect => trivial
    | destroy => trivial
  | false =>
    have hsettled : s.conn.Settled := ⟨hwf hs, htidy.disconnected hs⟩
    rw [if_neg (by simp)]
    cases a with
    | connect env =>
      have hstate := hstart hs
      dsimp only
      cases hleak : env.leaks with
      | false =>
        obtain ⟨hset, herr⟩ := connect_settled hsettled hstate hleak
        refine iff_of_true ⟨fun _ hfail => ?_, fun _ => hset.released⟩ (fun _ => hleak)
        exact ⟨herr hfail, hset.released (herr hfail)⟩
      | true =>
        obtain ⟨-, hl⟩ := connect_leaks hsettled hstate hleak
        refine iff_of_false (fun hno => ?_) (fun hno => ?_)
        · have hrel := hno.disconnected rfl hl.disconnected
          exact absurd (hl.ssl.symm.trans hrel.ssl) (by simp)
        · exact absurd (hleak.symm.trans (hno hs)) (by simp)
    | disconnect =>
      obtain ⟨hset, hrel, hstate⟩ := hsettled.disconnect
      exact iff_of_true ⟨fun _ _ => ⟨hstate, hrel⟩, fun _ _ => hrel⟩ trivial
    | destroy => exact iff_of_true ⟨nofun, nofun⟩ trivial

/-- A call that keeps the connection tidy keeps it well formed. -/
theorem connStep_wf {s : ConnSystem} (hwf : s.freed = false → s.conn.Wf) (htidy : Tidy s)
    {a : ConnAction} (hstart : StartsDisconnected s a) (hkeep : KeepsTidy s a) :
    (connStep s a).freed = false → (connStep s a).conn.Wf := by
  unfold connStep
  cases hs : s.freed with
  | true => exact fun hno => absurd (hs.symm.trans hno) (by simp)
  | false =>
    have hsettled : s.conn.Settled := ⟨hwf hs, htidy.disconnected hs⟩
    rw [if_neg (by simp)]
    cases a with
    | connect env => exact fun _ => (connect_settled hsettled (hstart hs) (hkeep hs)).1.toWf
    | disconnect => exact fun _ => hsettled.disconnect.1.toWf
    | destroy => exact nofun

/-- **When failed connects leave nothing behind.** In every run of connects, disconnects and
    a destroy in which connects are made on a disconnected connection: the connection is
    tidy at every point if and only if no connect leaks. -/
theorem connect_cleanup_iff (as : List ConnAction)
    (hstart : Along connStep StartsDisconnected connInit as) :
    Always connStep Tidy connInit as ↔ Along connStep KeepsTidy connInit as := by
  have hinit : connInit.conn.Released := ⟨rfl, rfl, rfl, rfl⟩
  refine always_iff_along_of (I := fun s : ConnSystem => s.freed = false → s.conn.Wf)
    ?_ ?_ ?_ ?_ hstart
  · intro s a hwf htidy hA htidy'
    exact connStep_wf hwf htidy hA ((connStep_tidy_iff hwf htidy hA).mp htidy')
  · intro s a hwf htidy hA
    exact connStep_tidy_iff hwf htidy hA
  · exact fun _ => ⟨rfl, nofun⟩
  · exact ⟨fun _ hno => absurd rfl hno, fun _ _ => hinit⟩

/-! ### Sample connects -/

/-- A transport that comes up on a socket of its own. -/
def sampleTransport : TransportEnv where
  accepted := true
  socket := .bound
  nonblocking := true
  pair := .ready
  session := true

/-- A connect over TCP in which everything works. -/
def tcpEnv : ConnectEnv where
  resolved := true
  udpOnly := false
  forceNatT := false
  useTcp := false
  tcp := ⟨true, [], true⟩
  tls := .ok
  abortAfterTcp := false
  race := ⟨true, false, []⟩
  abortAfterRace := false
  login := ⟨true, .bound, none, none⟩
  natT := ⟨false, .refused, .failed, false, sampleTransport⟩
  natTTls := .noContext
  natTLogin := ⟨false, .refused, none, none⟩
  abortAfterLogin := false
  rudpInit := none
  additional := none

/-- The login is refused. -/
def refusedEnv : ConnectEnv :=
  { tcpEnv with login := ⟨true, .bound, none, some .authentication⟩ }

/-- No TCP connection; the direct R-UDP worker wins the fallback race, and the server does not
    answer the watermark. -/
def fallbackEnv : ConnectEnv :=
  { tcpEnv with
    tcp := ⟨true, [], false⟩
    race := ⟨true, false, [⟨true, .direct true sampleTransport, .claims⟩]⟩
    login := ⟨false, .refused, none, none⟩ }

/-- A refused connect, a successful one and a disconnect. -/
theorem connect_cleanup_tcp :
    Always connStep Tidy connInit [.connect refusedEnv, .connect tcpEnv, .disconnect] ↔
      Along connStep KeepsTidy connInit [.connect refusedEnv, .connect tcpEnv, .disconnect] :=
  connect_cleanup_iff _ ⟨fun _ => rfl, fun _ => by decide, trivial, trivial⟩

/-- The connect over the fallback race fails, and the connection is not tidy afterwards. -/
theorem connect_leaves_transport :
    (softetherConnectWithHub softetherCreate fallbackEnv).2 = some .timeout ∧
      (softetherConnectWithHub softetherCreate fallbackEnv).1.state = .disconnected ∧
      (softetherConnectWithHub softetherCreate fallbackEnv).1.natT ≠ none ∧
      ¬ Tidy (connStep connInit (.connect fallbackEnv)) := by
  refine ⟨by decide, by decide, by decide, ?_⟩
  intro h
  have hfd := (h.disconnected rfl (by decide)).socketFd
  exact absurd hfd (by decide)

end SoftEther.Connection
