import SoftEther.Connection.Connect

namespace SoftEther.Connection

open Lib

/-!
# Every descriptor is closed once

The descriptors of a connection over its calls.  Over TCP each of them has one owner, and
`descriptors_closed_once` says that it is closed once.  Over a NAT-T transport the connection
and the transport both own the application end of the pair, and a disconnect closes it twice.
-/

/-! ### The owners -/

/-- The descriptors that a connection over TCP holds. -/
def Conn.fds (c : Conn) : List ℕ :=
  c.socketFd.toList ++ ((c.rudp.bind RudpSocket.udpFd).toList ++ c.additional)

/-- **Every open descriptor has one owner.** -/
structure Conn.Owns (c : Conn) : Prop where
  balanced : c.handles.Balanced c.fds
  natT : c.natT = none

theorem owns_create : softetherCreate.Owns := ⟨Handles.balanced_empty, rfl⟩

variable {c : Conn} {env : ConnectEnv}

theorem owns_closeSocket (h : c.Owns) : (closeSocket c).Owns :=
  ⟨h.balanced.close?, h.natT⟩

theorem owns_closeAdditional (h : c.Owns) : (closeAdditional c).Owns := by
  refine ⟨?_, h.natT⟩
  have hfront : c.fds.Perm (c.additional ++
      (c.socketFd.toList ++ ((c.rudp.bind RudpSocket.udpFd).toList ++ []))) := by
    have hsplit : c.fds = (c.socketFd.toList ++ (c.rudp.bind RudpSocket.udpFd).toList) ++
        c.additional := by
      rw [Conn.fds, List.append_assoc]
    rw [hsplit, List.append_nil]
    exact List.perm_append_comm
  exact (h.balanced.perm hfront).closeAll

theorem owns_shutdownSsl (h : c.Owns) : (shutdownSsl c).Owns := by
  unfold shutdownSsl
  split
  · exact ⟨h.balanced, h.natT⟩
  · exact h

theorem owns_destroyNatT (h : c.Owns) : destroyNatT c = c := by
  rw [destroyNatT, h.natT]

theorem owns_destroyRudp (h : c.Owns) : (destroyRudp c).Owns := by
  unfold destroyRudp
  cases hrudp : c.rudp with
  | none => exact h
  | some ctx =>
    refine ⟨?_, h.natT⟩
    have hbal : c.handles.Balanced (c.socketFd.toList ++ (ctx.udpFd.toList ++ c.additional)) := by
      have hown := h.balanced
      rwa [Conn.fds, hrudp] at hown
    exact (hbal.perm (List.perm_append_comm_assoc _ _ _)).close?

/-- **A disconnect over TCP** closes what the connection holds. -/
theorem Conn.Owns.disconnect (h : c.Owns)
    (hidle : c.state = .disconnected ∨ c.state = .disconnecting → c.fds = []) :
    (softetherDisconnect c).Owns ∧ (softetherDisconnect c).fds = [] := by
  by_cases hstate : c.state = .disconnected ∨ c.state = .disconnecting
  · unfold softetherDisconnect
    rw [if_pos hstate]
    exact ⟨h, hidle hstate⟩
  · have hlinks := owns_shutdownSsl (owns_closeAdditional (owns_closeSocket h))
    have hempty : (shutdownSsl (closeAdditional (closeSocket c))).socketFd = none ∧
        (shutdownSsl (closeAdditional (closeSocket c))).additional = [] := by
      unfold shutdownSsl
      split <;> exact ⟨rfl, rfl⟩
    unfold softetherDisconnect
    rw [if_neg hstate]
    dsimp only
    rw [owns_destroyNatT hlinks]
    generalize shutdownSsl (closeAdditional (closeSocket c)) = c' at hlinks hempty
    have hrudp : Conn.Owns (destroyRudp { c' with usingNatT := false }) :=
      owns_destroyRudp ⟨hlinks.balanced, hlinks.natT⟩
    refine ⟨⟨hrudp.balanced, hrudp.natT⟩, ?_⟩
    unfold destroyRudp
    cases c'.rudp with
    | none => simp [Conn.fds, hempty.1, hempty.2]
    | some ctx => simp [Conn.fds, hempty.1, hempty.2]

/-! ### The stages -/

theorem connectStart_owns (h : c.Owns) : (connectStart c).Owns ∧ (connectStart c).fds = c.fds := by
  unfold connectStart
  rw [owns_destroyNatT h, ite_self]
  exact ⟨⟨h.balanced, h.natT⟩, rfl⟩

/-- A handshake opens and closes nothing. -/
theorem performTlsHandshake_fields (c : Conn) (env : TlsOutcome) :
    ∃ state sslCtx ssl, (performTlsHandshake c env).1 =
      { c with state := state, sslCtx := sslCtx, ssl := ssl } := by
  unfold performTlsHandshake
  split
  · exact ⟨c.state, c.sslCtx, c.ssl, rfl⟩
  · cases env with
    | noContext => exact ⟨_, _, _, rfl⟩
    | failed stalled => exact ⟨_, _, _, rfl⟩
    | ok => exact ⟨_, _, _, rfl⟩

/-- The TCP stage starts without a socket and has at most one. -/
theorem connectTcp_owns (h : c.Owns) (hfd : c.socketFd = none) (env : ConnectEnv) :
    (connectTcp c env).1.Owns ∧ (connectTcp c env).1.rudp = c.rudp := by
  have hnone : (c.handles).Balanced ((c.rudp.bind RudpSocket.udpFd).toList ++ c.additional) := by
    have hown := h.balanced
    rwa [Conn.fds, hfd] at hown
  have htcp := tcpConnect_balanced hnone env.tcp
  unfold connectTcp
  cases env.forceNatT with
  | true => exact ⟨⟨h.balanced, h.natT⟩, rfl⟩
  | false =>
    simp only [Bool.false_eq_true, if_false]
    generalize tcpConnect c.handles env.tcp = res at htcp
    obtain ⟨t, fd⟩ := res
    cases fd with
    | none =>
      refine ⟨⟨?_, h.natT⟩, rfl⟩
      show t.Balanced (c.socketFd.toList ++ _)
      rw [hfd]
      exact htcp
    | some fd =>
      obtain ⟨state, sslCtx, ssl, htls⟩ :=
        performTlsHandshake_fields { c with handles := t, socketFd := some fd } env.tls
      have hown : Conn.Owns { c with
          handles := t, socketFd := some fd, state := state, sslCtx := sslCtx, ssl := ssl } :=
        ⟨htcp, h.natT⟩
      dsimp only
      generalize performTlsHandshake _ env.tls = res at htls
      obtain ⟨c', err⟩ := res
      dsimp only at htls
      subst htls
      cases err with
      | none => exact ⟨hown, rfl⟩
      | some e => exact ⟨owns_closeSocket hown, rfl⟩

/-- A lost race leaves the connection as it was. -/
theorem connectRace_owns (h : c.Owns) {env : RaceEnv} (hlost : env.won = false)
    (hkeep : env.loses = false) : (connectRace c env).Owns ∧ (connectRace c env).rudp = c.rudp := by
  have hsome := connectParallelRace_isSome c.handles env
  have hbal := connectParallelRace_balanced h.balanced hkeep
  unfold connectRace
  generalize connectParallelRace c.handles env = res at hsome hbal
  obtain ⟨t, tr⟩ := res
  cases tr with
  | none => exact ⟨⟨hbal, h.natT⟩, rfl⟩
  | some tr =>
    rw [hlost] at hsome
    exact absurd hsome (by simp)

theorem loginRudp_owns (h : c.Owns) (hrudp : c.rudp = none) (env : LoginEnv) :
    (loginRudp c env).Owns := by
  have hbal : c.handles.Balanced (c.socketFd.toList ++ c.additional) := by
    have hown := h.balanced
    rwa [Conn.fds, hrudp] at hown
  -- the socket of the context is opened in front of the others
  have hback : ∀ {t : Handles} {fd : Option ℕ},
      t.Balanced (fd.toList ++ (c.socketFd.toList ++ c.additional)) →
      t.Balanced (c.socketFd.toList ++ (fd.toList ++ c.additional)) := by
    intro t fd ht
    exact ht.perm (List.perm_append_comm_assoc _ _ _)
  have hfirst := rudpCreateUdpSocket_balanced c.handles none hbal env.rudpSocket
  unfold loginRudp
  generalize rudpCreateUdpSocket c.handles none env.rudpSocket = res at hfirst
  obtain ⟨t, fd⟩ := res
  cases fd with
  | none => exact ⟨hfirst, h.natT⟩
  | some fd =>
    cases env.rudpFamily with
    | none => exact ⟨hback hfirst, h.natT⟩
    | some family =>
      have hsecond := rudpCreateUdpSocket_balanced t (some fd) hfirst family
      dsimp only
      generalize rudpCreateUdpSocket t (some fd) family = res at hsecond
      obtain ⟨t, fd⟩ := res
      cases fd with
      | none => exact ⟨hsecond, h.natT⟩
      | some fd => exact ⟨hback hsecond, h.natT⟩

theorem softetherProtocolLogin_owns (h : c.Owns) (hrudp : c.rudp = none) (useTcp : Bool)
    (env : LoginEnv) : (softetherProtocolLogin c useTcp env).1.Owns := by
  unfold softetherProtocolLogin
  split
  · exact h
  · have hlogin := loginRudp_owns h hrudp env
    have hskip : Conn.Owns { c with rudp := none } := by
      refine ⟨?_, h.natT⟩
      have hown := h.balanced
      rwa [Conn.fds, hrudp] at hown
    dsimp only
    split
    · exact ⟨hlogin.balanced, hlogin.natT⟩
    · exact ⟨hskip.balanced, hskip.natT⟩

theorem connectRudp_owns (h : c.Owns) (env : ConnectEnv) : (connectRudp c env).Owns := by
  unfold connectRudp
  split
  · rename_i ctx family hctx hinit
    split
    · exact h
    · have hbal : c.handles.Balanced
          (ctx.udpFd.toList ++ (c.socketFd.toList ++ c.additional)) := by
        have hown := h.balanced
        rw [Conn.fds, hctx] at hown
        exact hown.perm (List.perm_append_comm_assoc _ _ _)
      have hnew := rudpCreateUdpSocket_balanced c.handles ctx.udpFd hbal family
      exact ⟨hnew.perm (List.perm_append_comm_assoc _ _ _), h.natT⟩
  · exact h

theorem establishFirstAdditional_owns (h : c.Owns) (env : Option (TcpEnv × Bool)) :
    (establishFirstAdditional c env).Owns := by
  unfold establishFirstAdditional
  split
  · exact h
  · rename_i tcp ok
    have htcp := tcpConnect_balanced h.balanced tcp
    generalize tcpConnect c.handles tcp = res at htcp
    obtain ⟨t, fd⟩ := res
    cases fd with
    | none => exact ⟨htcp, h.natT⟩
    | some fd =>
      dsimp only
      split
      · refine ⟨htcp.perm ?_, h.natT⟩
        show List.Perm ([fd] ++ (c.socketFd.toList ++
          ((c.rudp.bind RudpSocket.udpFd).toList ++ c.additional)))
          (c.socketFd.toList ++ ((c.rudp.bind RudpSocket.udpFd).toList ++ (c.additional ++ [fd])))
        rw [← List.append_assoc c.socketFd.toList, ← List.append_assoc c.socketFd.toList,
          ← List.append_assoc (c.socketFd.toList ++ _)]
        exact List.perm_append_comm
      · exact ⟨Handles.Balanced.close htcp, h.natT⟩

/-! ### Calls -/

/-- **A connection over TCP between two calls**: settled, every descriptor owned, and none
    when it is disconnected. -/
structure Conn.Accounted (c : Conn) : Prop extends Conn.Settled c, Conn.Owns c where
  closed : c.state = .disconnected → c.fds = []

theorem Conn.Accounted.disconnect (h : c.Accounted) :
    (softetherDisconnect c).Accounted ∧ (softetherDisconnect c).state = .disconnected ∧
      (softetherDisconnect c).fds = [] := by
  obtain ⟨hset, -, hstate⟩ := h.toSettled.disconnect
  obtain ⟨howns, hfds⟩ := h.toOwns.disconnect
    (fun hidle => h.closed (hidle.resolve_right h.state))
  exact ⟨⟨hset, howns, fun _ => hfds⟩, hstate, hfds⟩

/-- A busy connection is accounted for when it owns its descriptors. -/
theorem Conn.Owns.accounted (h : c.Owns) (hwf : c.Wf) (hstate : c.state ≠ .disconnected) :
    c.Accounted :=
  ⟨hwf.settled hstate, h, fun hdisc => absurd hdisc hstate⟩

/-- The race runs. -/
def ConnectEnv.races (env : ConnectEnv) : Bool := env.udpOnly || env.fallback

/-- TLS over TCP is up when the transport stage ends. -/
def ConnectEnv.direct (env : ConnectEnv) : Bool := !env.udpOnly && env.tcpUp

/-- The login over NAT-T is tried, when no race was won. -/
def ConnectEnv.secondTry (env : ConnectEnv) : Bool :=
  (env.udpOnly || !env.abortAfterTcp) && !env.abortAfterRace &&
    !(env.direct && env.login.watermark && env.login.auth.isNone)

/-- **The connect promotes a NAT-T transport.** -/
def ConnectEnv.promotes (env : ConnectEnv) : Bool :=
  env.resolved && ((env.races && env.race.won) || (env.secondTry && env.natT.ok))

/-- **The connect loses descriptors** in a worker or in the second try. -/
def ConnectEnv.losesFds (env : ConnectEnv) : Bool :=
  env.resolved && ((env.races && env.race.loses) || (env.secondTry && env.natT.loses))

theorem performTlsHandshake_ssl {env : TlsOutcome} (h : (performTlsHandshake c env).2 = none) :
    (performTlsHandshake c env).1.ssl = true := by
  unfold performTlsHandshake at h ⊢
  split
  · rename_i hfd
    rw [if_pos hfd] at h
    exact absurd h (by simp)
  · rename_i hfd
    rw [if_neg hfd] at h
    cases env with
    | noContext => exact absurd h (by simp)
    | failed stalled => exact absurd h (by simp)
    | ok => rfl

theorem connectTcp_ssl (h : (connectTcp c env).2 = true) : (connectTcp c env).1.ssl = true := by
  unfold connectTcp at h ⊢
  generalize (if env.forceNatT then (c.handles, none) else tcpConnect c.handles env.tcp) = res
    at h ⊢
  obtain ⟨t, fd⟩ := res
  cases fd with
  | none => exact absurd h (by simp)
  | some fd =>
    have hssl : (performTlsHandshake { c with handles := t, socketFd := some fd } env.tls).2 =
        none → (performTlsHandshake { c with handles := t, socketFd := some fd } env.tls).1.ssl =
        true := performTlsHandshake_ssl
    dsimp only at h ⊢
    generalize performTlsHandshake { c with handles := t, socketFd := some fd } env.tls = res
      at h hssl ⊢
    obtain ⟨c', err⟩ := res
    cases err with
    | none => exact hssl rfl
    | some e => exact absurd h (by simp)

/-- A lost race in an accounted connection. -/
theorem Conn.Accounted.race (h : c.Accounted) {env : RaceEnv} (hlost : env.won = false)
    (hkeep : env.loses = false) :
    (connectRace c env).Accounted ∧ (connectRace c env).rudp = c.rudp := by
  have hset := connectRace_settled h.toSettled (Or.inr hlost)
  obtain ⟨howns, hrudp⟩ := connectRace_owns h.toOwns hlost hkeep
  obtain ⟨t, ht⟩ := connectRace_lost hlost c
  refine ⟨⟨hset, howns, ?_⟩, hrudp⟩
  rw [ht]
  exact h.closed

/-- The transport stage without a winner of the race. -/
theorem connectTransport_accounted (h : c.Owns) (hwf : c.Wf) (hrel : c.Released)
    (hstate : c.state = .connecting) (env : ConnectEnv)
    (hrace : env.races = true → env.race.won = false ∧ env.race.loses = false) :
    (connectTransport c env).1.Accounted ∧ (connectTransport c env).1.rudp = none ∧
      ((connectTransport c env).2 = none → env.direct = true →
        (connectTransport c env).1.ssl = true) := by
  have hbusy : c.state ≠ .disconnected := by
    rw [hstate]
    decide
  unfold connectTransport
  cases hudp : env.udpOnly with
  | true =>
    obtain ⟨hlost, hkeep⟩ := hrace (by simp [ConnectEnv.races, hudp])
    obtain ⟨hacc, hrudp⟩ := (h.accounted hwf hbusy).race hlost hkeep
    exact ⟨hacc, hrudp.trans hrel.rudp,
      fun _ hdirect => by simp [ConnectEnv.direct, hudp] at hdirect⟩
  | false =>
    obtain ⟨hwf', htcp, hok⟩ := connectTcp_spec hwf hrel hstate env
    obtain ⟨howns, hrudp⟩ := connectTcp_owns h hrel.socketFd env
    have hssl : (connectTcp c env).2 = true → (connectTcp c env).1.ssl = true := connectTcp_ssl
    rw [hrel.rudp] at hrudp
    simp only [Bool.false_eq_true, if_false]
    generalize connectTcp c env = res at hwf' htcp hok howns hrudp hssl
    obtain ⟨c', ok⟩ := res
    dsimp only at hwf' htcp hok howns hrudp hssl ⊢
    obtain ⟨hdisc, -, -⟩ := (howns.accounted hwf' htcp).disconnect
    have hdrudp : (softetherDisconnect c').rudp = none :=
      (hwf'.settled htcp).disconnect.2.1.rudp
    cases habort : env.abortAfterTcp with
    | true => exact ⟨hdisc, hdrudp, nofun⟩
    | false =>
      cases ok with
      | true => exact ⟨howns.accounted hwf' htcp, hrudp, fun _ _ => hssl rfl⟩
      | false =>
        obtain ⟨hlost, hkeep⟩ := hrace (by
          simp [ConnectEnv.races, ConnectEnv.fallback, hudp, habort, ← hok])
        obtain ⟨hacc, hrrudp⟩ := hdisc.race hlost hkeep
        exact ⟨hacc, hrrudp.trans hdrudp,
          fun _ hdirect => by simp [ConnectEnv.direct, hudp, ← hok] at hdirect⟩

/-- A login on an accounted connection without an acceleration context. -/
theorem Conn.Accounted.login (h : c.Accounted) (hrudp : c.rudp = none) (useTcp : Bool)
    (env : LoginEnv) : (softetherProtocolLogin c useTcp env).1.Accounted ∧
      ((softetherProtocolLogin c useTcp env).2 ≠ none →
        (c.ssl && env.watermark && env.auth.isNone) = false) := by
  obtain ⟨hno, hyes⟩ := softetherProtocolLogin_spec h.toWf useTcp env
  cases hmark : c.ssl && env.watermark with
  | false =>
    rw [hno hmark]
    exact ⟨h, fun _ => rfl⟩
  | true =>
    obtain ⟨hwf, hstate, hauth⟩ := hyes hmark
    refine ⟨(softetherProtocolLogin_owns h.toOwns hrudp useTcp env).accounted hwf
      (by rw [hstate]; decide), fun hfail => ?_⟩
    rw [hauth] at hfail
    rw [Bool.true_and, Option.isNone_eq_false_iff, Option.isSome_iff_ne_none]
    exact hfail

/-- A second try that brings no transport. -/
theorem connectNatT_accounted (h : c.Accounted) (hfail : env.natT.ok = false)
    (hkeep : env.natT.loses = false) : (connectNatT c env).1.Accounted := by
  have hsome := tryNatTConnect_isSome c.handles env.natT
  have hbal := tryNatTConnect_balanced h.balanced hkeep
  unfold connectNatT
  generalize tryNatTConnect c.handles env.natT = res at hsome hbal
  obtain ⟨t, tr⟩ := res
  cases tr with
  | none =>
    have hset : Conn.Settled { c with handles := t } :=
      ⟨⟨h.sslCtx, h.state⟩, fun hdisc => ⟨(h.released hdisc).socketFd, (h.released hdisc).ssl,
        (h.released hdisc).natT, (h.released hdisc).rudp⟩⟩
    exact ⟨hset, ⟨hbal, h.natT⟩, h.closed⟩
  | some tr =>
    rw [hfail] at hsome
    exact absurd hsome (by simp)

/-- A transport stage that ends without an error was not aborted. -/
theorem connectTransport_not_aborted (h : (connectTransport c env).2 = none) :
    (env.udpOnly || !env.abortAfterTcp) = true := by
  unfold connectTransport at h
  cases hudp : env.udpOnly with
  | true => rfl
  | false =>
    cases habort : env.abortAfterTcp with
    | false => rfl
    | true =>
      rw [hudp, habort] at h
      exact absurd h (by simp)

/-- The login stage, when a second try brings no transport. -/
theorem connectLogin_accounted (h : c.Accounted) (hrudp : c.rudp = none)
    (hnat : (c.ssl && env.login.watermark && env.login.auth.isNone) = false →
      env.natT.ok = false ∧ env.natT.loses = false) : (connectLogin c env).1.Accounted := by
  obtain ⟨hacc, hwhy⟩ := h.login hrudp env.useTcp env.login
  unfold connectLogin
  generalize softetherProtocolLogin c env.useTcp env.login = res at hacc hwhy
  obtain ⟨c', err⟩ := res
  cases err with
  | none => exact hacc
  | some e =>
    dsimp only
    split
    · exact hacc
    · obtain ⟨hfail, hkeep⟩ := hnat (hwhy (by simp))
      exact connectNatT_accounted hacc.disconnect.1 hfail hkeep

theorem connectSession_accounted (h : c.Owns) (hwf : c.Wf) (env : ConnectEnv) :
    (connectSession c env).1.Accounted := by
  have hset := (connectSession_spec hwf env).1
  have hrudp := connectRudp_owns h env
  have hconn : Conn.Owns { connectRudp c env with state := .connected } :=
    ⟨hrudp.balanced, hrudp.natT⟩
  unfold connectSession at hset ⊢
  dsimp only at hset ⊢
  split
  · rename_i hfd
    rw [if_pos hfd] at hset
    obtain ⟨howns, hfds⟩ := hconn.disconnect (fun hno => by simp at hno)
    exact ⟨hset, howns, fun _ => hfds⟩
  · rename_i hfd
    rw [if_neg hfd] at hset
    have howns := establishFirstAdditional_owns hconn env.additional
    refine ⟨hset, howns, fun hdisc => ?_⟩
    have hstate : (establishFirstAdditional { connectRudp c env with state := .connected }
        env.additional).state = .connected := by
      unfold establishFirstAdditional
      split
      · rfl
      · split
        · rfl
        · split <;> rfl
    rw [hstate] at hdisc
    exact absurd hdisc (by decide)

/-- **A connect over TCP keeps the accounts.** -/
theorem connect_accounted (h : c.Accounted) (hstate : c.state = .disconnected)
    (hpromotes : env.promotes = false) (hkeep : env.losesFds = false) :
    (softetherConnectWithHub c env).1.Accounted := by
  obtain ⟨hwf, hrel, hbusy⟩ := connectStart_spec h.toSettled hstate
  obtain ⟨howns, hfds⟩ := connectStart_owns h.toOwns
  unfold softetherConnectWithHub
  dsimp only
  cases hres : env.resolved with
  | false =>
    rw [Bool.not_false, if_pos rfl]
    refine ⟨⟨⟨hwf.sslCtx, nofun⟩, fun _ => ⟨hrel.socketFd, hrel.ssl, hrel.natT, hrel.rudp⟩⟩,
      ⟨howns.balanced, howns.natT⟩, fun _ => ?_⟩
    exact hfds.trans (h.closed hstate)
  | true =>
    rw [Bool.not_true, if_neg (by simp)]
    simp only [ConnectEnv.promotes, ConnectEnv.losesFds, hres, Bool.true_and,
      Bool.or_eq_false_iff, Bool.and_eq_false_iff] at hpromotes hkeep
    obtain ⟨hacc, hrudp, hssl⟩ := connectTransport_accounted howns hwf hrel hbusy env
      (fun hraces => ⟨hpromotes.1.resolve_left (by simp [hraces]),
        hkeep.1.resolve_left (by simp [hraces])⟩)
    have hgo : (connectTransport (connectStart c) env).2 = none →
        (env.udpOnly || !env.abortAfterTcp) = true := connectTransport_not_aborted
    generalize connectTransport (connectStart c) env = res at hacc hrudp hssl hgo
    obtain ⟨c', err⟩ := res
    cases err with
    | some e => exact hacc
    | none =>
      dsimp only at hacc hrudp hssl hgo ⊢
      cases habort : env.abortAfterRace with
      | true => exact hacc.disconnect.1
      | false =>
        rw [if_neg (by simp)]
        -- a login that fails is what makes the second try run
        have hnat : (c'.ssl && env.login.watermark && env.login.auth.isNone) = false →
            env.natT.ok = false ∧ env.natT.loses = false := by
          intro hfail
          have hdirect : (env.direct && env.login.watermark && env.login.auth.isNone) = false := by
            cases hd : env.direct with
            | false => rfl
            | true => rwa [hssl rfl hd] at hfail
          have htry : env.secondTry = true := by
            rw [ConnectEnv.secondTry, hgo rfl, habort, hdirect]
            rfl
          exact ⟨hpromotes.2.resolve_left (by simp [htry]),
            hkeep.2.resolve_left (by simp [htry])⟩
        have hlogin := connectLogin_accounted hacc hrudp hnat
        generalize connectLogin c' env = res at hlogin
        obtain ⟨c'', err⟩ := res
        cases err with
        | some e => exact hlogin.disconnect.1
        | none =>
          dsimp only at hlogin ⊢
          split
          · exact hlogin.disconnect.1
          · exact connectSession_accounted hlogin.toOwns hlogin.toWf env

/-! ### Runs -/

/-- The call is a connect on a disconnected connection that promotes no NAT-T transport and
    loses no descriptors, or no connect. -/
def KeepsDescriptors (s : ConnSystem) : ConnAction → Prop
  | .connect env => s.freed = false →
      s.conn.state = .disconnected ∧ env.promotes = false ∧ env.losesFds = false
  | .disconnect => True
  | .destroy => True

/-- **Every descriptor is closed once**: never twice, and all of them after the destroy. -/
structure ClosedOnce (s : ConnSystem) : Prop where
  never_twice : s.conn.handles.closed.Nodup
  all_closed : s.freed = true → ∀ fd,
    s.conn.handles.closed.count fd = if fd < s.conn.handles.next then 1 else 0

/-- The accounts of the system: nothing is held once the memory is released. -/
structure Accounts (s : ConnSystem) : Prop where
  accounted : s.conn.Accounted
  freed : s.freed = true → s.conn.fds = []

theorem accounts_init : Accounts connInit where
  accounted := ⟨⟨⟨rfl, nofun⟩, fun _ => ⟨rfl, rfl, rfl, rfl⟩⟩, owns_create, fun _ => rfl⟩
  freed := nofun

theorem Accounts.step {s : ConnSystem} (h : Accounts s) {a : ConnAction}
    (hkeep : KeepsDescriptors s a) : Accounts (connStep s a) := by
  unfold connStep
  cases hs : s.freed with
  | true =>
    rw [if_pos rfl]
    exact h
  | false =>
    rw [if_neg (by simp)]
    obtain ⟨hdisc, hstate, hfds⟩ := h.accounted.disconnect
    cases a with
    | connect env =>
      obtain ⟨hidle, hpromotes, hloses⟩ := hkeep hs
      exact ⟨connect_accounted h.accounted hidle hpromotes hloses, nofun⟩
    | disconnect => exact ⟨hdisc, nofun⟩
    | destroy =>
      have hend : ∀ c : Conn, c.Accounted → c.fds = [] →
          Conn.Accounted { destroyNatT c with usingNatT := false } ∧
            Conn.fds { destroyNatT c with usingNatT := false } = [] := by
        intro c hc hnone
        rw [owns_destroyNatT hc.toOwns]
        exact ⟨⟨⟨⟨hc.sslCtx, hc.state⟩, fun hd => ⟨(hc.released hd).socketFd,
          (hc.released hd).ssl, (hc.released hd).natT, (hc.released hd).rudp⟩⟩,
          ⟨hc.balanced, hc.natT⟩, hc.closed⟩, hnone⟩
      dsimp only
      unfold softetherDestroy
      split
      · rename_i hidle
        obtain ⟨hacc, hnone⟩ := hend s.conn h.accounted (h.accounted.closed hidle)
        exact ⟨hacc, fun _ => hnone⟩
      · obtain ⟨hacc, hnone⟩ := hend _ hdisc hfds
        exact ⟨hacc, fun _ => hnone⟩

theorem Accounts.closedOnce {s : ConnSystem} (h : Accounts s) : ClosedOnce s where
  never_twice := h.accounted.balanced.closed_nodup
  all_closed := by
    intro hfreed
    have hbal := h.accounted.balanced
    rw [h.freed hfreed] at hbal
    exact hbal.closed_once

/-- **Descriptors are closed exactly once** at every point of a run of connects, disconnects
    and a destroy in which no connect promotes a NAT-T transport or loses descriptors. -/
theorem descriptors_closed_once (as : List ConnAction)
    (hkeep : Along connStep KeepsDescriptors connInit as) :
    Always connStep ClosedOnce connInit as :=
  always_of_along (I := fun s : ConnSystem => Accounts s) (fun _ _ hs hC => hs.step hC)
    (fun _ hs => hs.closedOnce) hkeep accounts_init

/-- A refused connect, a successful one and the destroy. -/
theorem descriptors_closed_once_tcp :
    Always connStep ClosedOnce connInit [.connect refusedEnv, .connect tcpEnv, .destroy] :=
  descriptors_closed_once _ ⟨fun _ => by decide, fun _ => by decide, trivial, trivial⟩

/-! ### Over a NAT-T transport -/

/-- No TCP connection; the fallback race is won and the login succeeds. -/
def relayEnv : ConnectEnv :=
  { fallbackEnv with login := ⟨true, .refused, none, none⟩ }

/-- A connect over the fallback race and a disconnect. -/
theorem descriptors_closed_twice :
    ¬ Always connStep ClosedOnce connInit [.connect relayEnv, .disconnect] := by
  rintro ⟨-, -, hlast⟩
  exact absurd hlast.never_twice (by decide)

end SoftEther.Connection
