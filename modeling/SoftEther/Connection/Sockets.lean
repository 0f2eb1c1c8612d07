import SoftEther.Lib.Handles

namespace SoftEther.Connection

open Lib

/-!
# Descriptors of a connect (`tcp_socket.c`, `rudp_transport.c`, `softether_nat_t.c`)

What each routine opens and closes, on a table of handles.  The environment says which
system calls and exchanges succeed; every error path of the source is a path here.

* `tcpConnect`, `rudpCreateUdpSocket`, `natTConnect`, `rudpTransportConnect`;
* `connectParallelRace` — the workers of the parallel transport race;
* `…_isSome` — the result as a function of the environment alone;
* `…_balanced` — what is left open belongs to the result.

The workers run one after the other here, in the order in which they try to claim the
race; only the numbers of their descriptors depend on that.  The parent waits for all of them
(module `Arbitration`).
-/

/-! ### TCP sockets -/

/-- A `softether_socket_t` on its way to a connection: its creation, each change of the
    address family with the result of `socket`, and whether an address answers. -/
structure TcpEnv where
  created : Bool
  recreated : List Bool
  connected : Bool

/-- `socket_recreate_for_family`, when the family changes. -/
def socketRecreateForFamily (s : Handles × Option ℕ) (ok : Bool) : Handles × Option ℕ :=
  let t := s.1.close? s.2
  if ok then (t.opened, some t.next) else (t, none)

/-- `socket_create` and `socket_connect_timeout_cancel`; without a connection the socket
    is destroyed. -/
def tcpConnect (t : Handles) (env : TcpEnv) : Handles × Option ℕ :=
  if !env.created then (t, none)
  else
    let s := env.recreated.foldl socketRecreateForFamily (t.opened, some t.next)
    if env.connected then s else (s.1.close? s.2, none)

/-- The connect attempt succeeds. -/
def TcpEnv.ok (env : TcpEnv) : Bool :=
  env.created && env.connected && env.recreated.getLast?.getD true

/-! ### UDP sockets -/

/-- `socket` and `bind` for a datagram socket. -/
inductive UdpOutcome
  | refused
  | unbound
  | bound
  deriving DecidableEq, Repr

/-- A socket is opened and bound; one that cannot be bound is closed. -/
def udpSocket (t : Handles) : UdpOutcome → Handles × Option ℕ
  | .refused => (t, none)
  | .unbound => (t.openedClosed, none)
  | .bound => (t.opened, some t.next)

/-- `rudp_create_udp_socket`: the old socket of the context is closed first. -/
def rudpCreateUdpSocket (t : Handles) (fd : Option ℕ) (env : UdpOutcome) :
    Handles × Option ℕ :=
  udpSocket (t.close? fd) env

/-! ### The R-UDP transport -/

/-- The descriptors of a `rudp_transport_t`. -/
structure Transport where
  workerFd : ℕ
  appFd : ℕ
  udpFd : ℕ
  deriving DecidableEq, Repr

/-- The descriptors of a transport. -/
def Transport.fds (tr : Transport) : List ℕ := [tr.workerFd, tr.appFd, tr.udpFd]

/-- The descriptors of a transport that may be missing. -/
def transportFds (tr : Option Transport) : List ℕ := tr.elim [] Transport.fds

/-- `socketpair`, and making its first end non-blocking. -/
inductive PairOutcome
  | refused
  | blocking
  | ready
  deriving DecidableEq, Repr

/-- What the start of a transport meets. -/
structure TransportEnv where
  /-- the configuration has an address and a port -/
  accepted : Bool
  /-- the transport's own socket, when the configuration brings none -/
  socket : UdpOutcome
  nonblocking : Bool
  pair : PairOutcome
  /-- the worker starts and the session is established in time -/
  session : Bool

/-- `rudp_transport_connect` with the socket of the configuration, if it has one. -/
def rudpTransportConnect (t : Handles) (cfgFd : Option ℕ) (env : TransportEnv) :
    Handles × Option Transport :=
  if !env.accepted then (t, none)
  else
    match (match cfgFd with
      | some fd => (t, some fd)
      | none => udpSocket t env.socket) with
    | (t, none) => (t, none)
    | (t, some udpFd) =>
      -- the socket of the configuration is not closed here
      if !env.nonblocking then (if cfgFd.isNone then t.close udpFd else t, none)
      else
        match env.pair with
        | .refused => (t.close udpFd, none)
        | .blocking => (t.opened.opened.closeAll [t.next, t.opened.next, udpFd], none)
        | .ready =>
          let tr := { workerFd := t.next, appFd := t.opened.next, udpFd := udpFd : Transport }
          let t := t.opened.opened
          if env.session then (t, some tr)
          else (t.closeAll [tr.udpFd, tr.workerFd, tr.appFd], none)

/-- `rudp_transport_destroy`. -/
def rudpTransportDestroy (t : Handles) (tr : Transport) : Handles := t.closeAll tr.fds

/-- The session comes up. -/
def TransportEnv.ok (env : TransportEnv) (hasFd : Bool) : Bool :=
  env.accepted && (hasFd || env.socket = .bound) && env.nonblocking && env.pair = .ready &&
    env.session

/-- The socket of the configuration is left open by an early failure. -/
def TransportEnv.loses (env : TransportEnv) (hasFd : Bool) : Bool :=
  hasFd && (!env.accepted || !env.nonblocking)

/-! ### NAT traversal -/

/-- What the relay answers. -/
inductive NatTAnswer
  | failed
  | sameLan
  | endpoint
  deriving DecidableEq, Repr

/-- A rendezvous at the relay and the transport to the endpoint it names. -/
structure NatTEnv where
  /-- the server has an IPv4 address and the relay's name resolves -/
  reachable : Bool
  socket : UdpOutcome
  answer : NatTAnswer
  /-- not cancelled in between, and `rudp_transport_create` succeeds -/
  proceeds : Bool
  transport : TransportEnv

/-- `nat_t_connect_ex`: the socket to go on with, if the endpoint is not in the same LAN. -/
def natTConnect (t : Handles) (env : NatTEnv) : Handles × Option (Option ℕ) :=
  if !env.reachable then (t, none)
  else
    match udpSocket t env.socket with
    | (t, none) => (t, none)
    | (t, some fd) =>
      match env.answer with
      | .failed => (t.close fd, none)
      | .sameLan => (t.close fd, some none)
      | .endpoint => (t, some (some fd))

/-- `softether_try_nat_t_connect`, up to the promotion of the transport. -/
def tryNatTConnect (t : Handles) (env : NatTEnv) : Handles × Option Transport :=
  match natTConnect t env with
  | (t, none) => (t, none)
  | (t, some fd) =>
    if !env.proceeds then (t.close? fd, none)
    else rudpTransportConnect t fd env.transport

/-- The rendezvous names an endpoint. -/
def NatTEnv.answered (env : NatTEnv) : Bool :=
  env.reachable && env.socket = .bound && env.answer ≠ .failed && env.proceeds

/-- The rendezvous ends with a transport. -/
def NatTEnv.ok (env : NatTEnv) : Bool :=
  env.answered && env.transport.ok (env.answer = .endpoint)

/-- The rendezvous loses its descriptor. -/
def NatTEnv.loses (env : NatTEnv) : Bool :=
  env.answered && env.transport.loses (env.answer = .endpoint)

/-! ### The parallel transport race -/

/-- What a worker does before its TLS handshake: the R-UDP, DNS and ICMP workers open a
    transport of their own, the NAT-T worker goes through the relay. -/
inductive WorkerTransport
  | direct (created : Bool) (env : TransportEnv)
  | natT (env : NatTEnv)

/-- What a worker does with its link. -/
inductive WorkerFinish
  /-- cancelled, or the TLS handshake fails -/
  | gaveUp
  /-- tries to claim the race -/
  | claims
  deriving DecidableEq, Repr

structure WorkerEnv where
  /-- the thread exists and passes its first checks -/
  started : Bool
  transport : WorkerTransport
  finish : WorkerFinish

structure RaceEnv where
  /-- the control blocks are allocated -/
  prepared : Bool
  /-- the parent has given up before a winner was published -/
  abandoned : Bool
  workers : List WorkerEnv

/-- The table of handles, `winner_claimed`, and the published winner. -/
structure Race where
  handles : Handles
  claimed : Bool
  winner : Option Transport

/-- The connect of a worker, by its transport. -/
def workerConnect (t : Handles) : WorkerTransport → Handles × Option Transport
  | .direct created env => if !created then (t, none) else rudpTransportConnect t none env
  | .natT env => tryNatTConnect t env

/-- `transport_thread_rudp_direct`, `_natt`, `_dns` and `_icmp`. -/
def raceWorker (abandoned : Bool) (r : Race) (w : WorkerEnv) : Race :=
  if !w.started then r
  else
    match workerConnect r.handles w.transport with
    | (t, none) => { r with handles := t }
    | (t, some tr) =>
      match w.finish with
      | .gaveUp => { r with handles := rudpTransportDestroy t tr }
      | .claims =>
        if r.claimed then { r with handles := rudpTransportDestroy t tr }
        else if abandoned then { r with handles := rudpTransportDestroy t tr, claimed := true }
        else { handles := t, claimed := true, winner := some tr }

/-- `softether_connect_parallel_race`, up to the promotion of the winner. -/
def connectParallelRace (t : Handles) (env : RaceEnv) : Handles × Option Transport :=
  if !env.prepared then (t, none)
  else
    let r := env.workers.foldl (raceWorker env.abandoned)
      { handles := t, claimed := false, winner := none }
    (r.handles, r.winner)

/-- It ends with a transport. -/
def WorkerTransport.ok : WorkerTransport → Bool
  | .direct created env => created && env.ok false
  | .natT env => env.ok

/-- It loses a descriptor. -/
def WorkerTransport.loses : WorkerTransport → Bool
  | .direct _ _ => false
  | .natT env => env.loses

/-- The worker has a transport with a complete handshake. -/
def WorkerEnv.claims (w : WorkerEnv) : Bool :=
  w.started && w.transport.ok && w.finish = .claims

/-- The worker leaves descriptors behind, by an early failure. -/
def WorkerEnv.loses (w : WorkerEnv) : Bool :=
  w.started && w.transport.loses

/-- Some worker wins. -/
def RaceEnv.won (env : RaceEnv) : Bool :=
  env.prepared && !env.abandoned && env.workers.any WorkerEnv.claims

/-- Some worker of the race loses a descriptor. -/
def RaceEnv.loses (env : RaceEnv) : Bool :=
  env.prepared && env.workers.any WorkerEnv.loses

/-! ### The results -/

theorem rudpTransportConnect_isSome (t : Handles) (cfgFd : Option ℕ) (env : TransportEnv) :
    (rudpTransportConnect t cfgFd env).2.isSome = env.ok cfgFd.isSome := by
  obtain ⟨accepted, socket, nonblocking, pair, session⟩ := env
  unfold rudpTransportConnect TransportEnv.ok
  cases accepted with
  | false => rfl
  | true =>
    cases cfgFd with
    | some fd => cases nonblocking <;> cases pair <;> cases session <;> rfl
    | none =>
      cases socket <;> cases nonblocking <;> cases pair <;> cases session <;> rfl

theorem tryNatTConnect_isSome (t : Handles) (env : NatTEnv) :
    (tryNatTConnect t env).2.isSome = env.ok := by
  obtain ⟨reachable, socket, answer, proceeds, transport⟩ := env
  unfold tryNatTConnect natTConnect NatTEnv.ok NatTEnv.answered
  cases reachable with
  | false => rfl
  | true =>
    cases socket with
    | refused => rfl
    | unbound => rfl
    | bound =>
      cases answer with
      | failed => rfl
      | sameLan =>
        cases proceeds with
        | false => rfl
        | true => exact rudpTransportConnect_isSome t.openedClosed none transport
      | endpoint =>
        cases proceeds with
        | false => rfl
        | true => exact rudpTransportConnect_isSome t.opened (some t.next) transport

theorem workerConnect_isSome (t : Handles) (w : WorkerTransport) :
    (workerConnect t w).2.isSome = w.ok := by
  cases w with
  | direct created env =>
    cases created with
    | false => rfl
    | true => exact rudpTransportConnect_isSome t none env
  | natT env => exact tryNatTConnect_isSome t env

/-- A worker takes the race when it claims it and nobody has. -/
theorem raceWorker_winner (abandoned : Bool) (r : Race) (w : WorkerEnv) :
    (raceWorker abandoned r w).claimed = (r.claimed || w.claims) ∧
      (raceWorker abandoned r w).winner.isSome =
        (r.winner.isSome || (!r.claimed && !abandoned && w.claims)) := by
  have hok := workerConnect_isSome r.handles w.transport
  unfold raceWorker WorkerEnv.claims
  rw [← hok]
  cases w.started with
  | false => simp
  | true =>
    cases hres : workerConnect r.handles w.transport with
    | mk t tr =>
      cases tr with
      | none => simp
      | some tr =>
        cases w.finish with
        | gaveUp => simp
        | claims =>
          cases hc : r.claimed with
          | true => simp
          | false => cases abandoned <;> simp

/-- The workers together: the first one that claims the race wins it. -/
theorem foldl_raceWorker_winner (abandoned : Bool) (ws : List WorkerEnv) (r : Race) :
    (ws.foldl (raceWorker abandoned) r).winner.isSome =
      (r.winner.isSome || (!r.claimed && !abandoned && ws.any WorkerEnv.claims)) := by
  induction ws generalizing r with
  | nil => simp
  | cons w ws ih =>
    obtain ⟨hclaimed, hwinner⟩ := raceWorker_winner abandoned r w
    rw [List.foldl_cons, ih, hclaimed, hwinner, List.any_cons]
    cases r.winner.isSome <;> cases r.claimed <;> cases abandoned <;> cases w.claims <;> simp

theorem connectParallelRace_isSome (t : Handles) (env : RaceEnv) :
    (connectParallelRace t env).2.isSome = env.won := by
  unfold connectParallelRace RaceEnv.won
  cases env.prepared with
  | false => rfl
  | true =>
    have h := foldl_raceWorker_winner env.abandoned env.workers
      { handles := t, claimed := false, winner := none }
    simpa using h

theorem foldl_recreate_isSome (oks : List Bool) (s : Handles × Option ℕ) :
    (oks.foldl socketRecreateForFamily s).2.isSome = oks.getLast?.getD s.2.isSome := by
  induction oks generalizing s with
  | nil => rfl
  | cons ok oks ih =>
    rw [List.foldl_cons, ih, List.getLast?_cons]
    have hone : (socketRecreateForFamily s ok).2.isSome = ok := by
      cases ok <;> rfl
    rw [hone, Option.getD_some]

theorem tcpConnect_isSome (t : Handles) (env : TcpEnv) :
    (tcpConnect t env).2.isSome = env.ok := by
  have h := foldl_recreate_isSome env.recreated (t.opened, some t.next)
  unfold tcpConnect TcpEnv.ok
  cases env.created with
  | false => rfl
  | true =>
    cases env.connected with
    | false => simp
    | true => simpa using h

/-! ### What is left open -/

variable {held : List ℕ} {t : Handles}

theorem udpSocket_balanced (h : t.Balanced held) (env : UdpOutcome) :
    (udpSocket t env).1.Balanced ((udpSocket t env).2.toList ++ held) := by
  cases env with
  | refused => exact h
  | unbound => exact h.openedClosed
  | bound => exact h.opened

theorem rudpCreateUdpSocket_balanced (t : Handles) (fd : Option ℕ)
    (h : t.Balanced (fd.toList ++ held)) (env : UdpOutcome) :
    (rudpCreateUdpSocket t fd env).1.Balanced
      ((rudpCreateUdpSocket t fd env).2.toList ++ held) :=
  udpSocket_balanced h.close? env

theorem foldl_recreate_balanced (oks : List Bool) {s : Handles × Option ℕ}
    (h : s.1.Balanced (s.2.toList ++ held)) : (oks.foldl socketRecreateForFamily s).1.Balanced
      ((oks.foldl socketRecreateForFamily s).2.toList ++ held) := by
  induction oks generalizing s with
  | nil => exact h
  | cons ok oks ih =>
    apply ih
    cases ok with
    | true => exact h.close?.opened
    | false => exact h.close?

theorem tcpConnect_balanced (h : t.Balanced held) (env : TcpEnv) :
    (tcpConnect t env).1.Balanced ((tcpConnect t env).2.toList ++ held) := by
  have hopen : (env.recreated.foldl socketRecreateForFamily (t.opened, some t.next)).1.Balanced
      ((env.recreated.foldl socketRecreateForFamily (t.opened, some t.next)).2.toList ++ held) :=
    foldl_recreate_balanced env.recreated h.opened
  unfold tcpConnect
  cases env.created with
  | false => exact h
  | true =>
    cases env.connected with
    | false => exact hopen.close?
    | true => exact hopen

/-- Unless the socket of the configuration is lost, the transport holds what is open. -/
theorem rudpTransportConnect_balanced (t : Handles) (cfgFd : Option ℕ)
    (h : t.Balanced (cfgFd.toList ++ held)) (env : TransportEnv)
    (hkeep : env.loses cfgFd.isSome = false) : (rudpTransportConnect t cfgFd env).1.Balanced
      (transportFds (rudpTransportConnect t cfgFd env).2 ++ held) := by
  obtain ⟨accepted, socket, nonblocking, pair, session⟩ := env
  -- the part after the socket: the pair is opened in front of it
  have hpair : ∀ {t : Handles} {udpFd : ℕ}, t.Balanced (udpFd :: held) →
      t.opened.opened.Balanced (t.next :: t.opened.next :: udpFd :: held) := by
    intro t udpFd ht
    exact ht.opened.opened.perm (List.Perm.swap _ _ _)
  have hfail : ∀ {t : Handles} {udpFd : ℕ}, t.Balanced (udpFd :: held) →
      (t.opened.opened.closeAll [udpFd, t.next, t.opened.next]).Balanced held := by
    intro t udpFd ht
    have hfront : ([t.next, t.opened.next] ++ [udpFd]).Perm
        ([udpFd] ++ [t.next, t.opened.next]) := List.perm_append_comm
    have hperm := (hpair ht).perm (hfront.append_right held)
    exact Handles.Balanced.closeAll hperm
  unfold rudpTransportConnect
  cases accepted with
  | false =>
    cases cfgFd with
    | none => exact h
    | some fd => exact absurd hkeep (by simp [TransportEnv.loses])
  | true =>
    cases cfgFd with
    | some fd =>
      cases nonblocking with
      | false => exact absurd hkeep (by simp [TransportEnv.loses])
      | true =>
        cases pair with
        | refused => exact h.close
        | blocking => exact (hpair h).closeAll
        | ready =>
          cases session with
          | true => exact hpair h
          | false => exact hfail h
    | none =>
      cases socket with
      | refused => exact h
      | unbound => exact h.openedClosed
      | bound =>
        have hopen : t.opened.Balanced (t.next :: held) := h.opened
        cases nonblocking with
        | false => exact hopen.close
        | true =>
          cases pair with
          | refused => exact hopen.close
          | blocking => exact (hpair hopen).closeAll
          | ready =>
            cases session with
            | true => exact hpair hopen
            | false => exact hfail hopen

theorem rudpTransportDestroy_balanced {tr : Transport} (h : t.Balanced (tr.fds ++ held)) :
    (rudpTransportDestroy t tr).Balanced held :=
  h.closeAll

theorem tryNatTConnect_balanced (h : t.Balanced held) {env : NatTEnv} (hkeep : env.loses = false) :
    (tryNatTConnect t env).1.Balanced (transportFds (tryNatTConnect t env).2 ++ held) := by
  obtain ⟨reachable, socket, answer, proceeds, transport⟩ := env
  unfold tryNatTConnect natTConnect
  cases reachable with
  | false => exact h
  | true =>
    cases socket with
    | refused => exact h
    | unbound => exact h.openedClosed
    | bound =>
      cases answer with
      | failed => exact h.openedClosed
      | sameLan =>
        cases proceeds with
        | false => exact h.openedClosed
        | true =>
          exact rudpTransportConnect_balanced t.openedClosed none h.openedClosed transport hkeep
      | endpoint =>
        cases proceeds with
        | false => exact h.openedClosed
        | true =>
          exact rudpTransportConnect_balanced t.opened (some t.next) h.opened transport hkeep

theorem workerConnect_balanced (h : t.Balanced held) {w : WorkerTransport}
    (hkeep : w.loses = false) :
    (workerConnect t w).1.Balanced (transportFds (workerConnect t w).2 ++ held) := by
  cases w with
  | natT env => exact tryNatTConnect_balanced h hkeep
  | direct created env =>
    cases created with
    | false => exact h
    | true =>
      exact rudpTransportConnect_balanced t none h env (by simp [TransportEnv.loses])

/-- The claim of the race and its winner go together. -/
def Race.Ok (r : Race) (held : List ℕ) : Prop :=
  r.handles.Balanced (transportFds r.winner ++ held) ∧ (r.claimed = false → r.winner = none)

/-- **A worker that loses nothing leaves its transport with the winner or closed.** -/
theorem raceWorker_ok {abandoned : Bool} {r : Race} (h : r.Ok held) {w : WorkerEnv}
    (hkeep : w.loses = false) : (raceWorker abandoned r w).Ok held := by
  obtain ⟨hbal, hclaim⟩ := h
  unfold raceWorker
  cases hs : w.started with
  | false => exact ⟨hbal, hclaim⟩
  | true =>
    rw [WorkerEnv.loses, hs, Bool.true_and] at hkeep
    have hres := workerConnect_balanced hbal hkeep
    cases hc : workerConnect r.handles w.transport with
    | mk t tr =>
      rw [hc] at hres
      cases tr with
      | none => exact ⟨hres, hclaim⟩
      | some tr =>
        have hdestroy : (rudpTransportDestroy t tr).Balanced (transportFds r.winner ++ held) :=
          rudpTransportDestroy_balanced hres
        cases hf : w.finish with
        | gaveUp => exact ⟨hdestroy, hclaim⟩
        | claims =>
          cases hclaimed : r.claimed with
          | true => exact ⟨hdestroy, fun hfalse => nomatch hfalse⟩
          | false =>
            cases abandoned with
            | true => exact ⟨hdestroy, fun hfalse => nomatch hfalse⟩
            | false =>
              rw [hclaim hclaimed] at hres
              exact ⟨hres, fun hfalse => nomatch hfalse⟩

/-- **The race leaves nothing open but the winner**, if no worker loses descriptors. -/
theorem connectParallelRace_balanced (h : t.Balanced held) {env : RaceEnv}
    (hkeep : env.loses = false) : (connectParallelRace t env).1.Balanced
      (transportFds (connectParallelRace t env).2 ++ held) := by
  have hfold : ∀ (ws : List WorkerEnv) (r : Race), r.Ok held → ws.any WorkerEnv.loses = false →
      (ws.foldl (raceWorker env.abandoned) r).Ok held := by
    intro ws
    induction ws with
    | nil => exact fun r hr _ => hr
    | cons w ws ih =>
      intro r hr hws
      rw [List.any_cons, Bool.or_eq_false_iff] at hws
      exact ih _ (raceWorker_ok hr hws.1) hws.2
  unfold connectParallelRace
  cases hp : env.prepared with
  | false => exact h
  | true =>
    rw [RaceEnv.loses, hp, Bool.true_and] at hkeep
    exact (hfold env.workers { handles := t, claimed := false, winner := none }
      ⟨h, fun _ => rfl⟩ hkeep).1

end SoftEther.Connection
