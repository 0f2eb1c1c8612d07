import Mathlib.Data.Int.Notation
import SoftEther.Lib.EventLog

namespace SoftEther.Connection

open Lib

/-!
# The parallel transport race (`proto/softether_protocol.c`)

`softether_connect_parallel_race` and its workers as threads that interleave.  A step makes at
most one access to the memory that the threads share, so an interleaving of steps is one of the
threads.

* `TransportResult`, `RaceControl`, `WorkerPc`, `ParentPc`, `RaceState` — the memory and where
  each thread stands, with its local variables;
* `workerStep` — `race_thread_trampoline` with the bodies of the five transports;
* `parentStep` — the parent, from the first `pthread_create` to the promotion of the winner;
* `RaceEvent` — what becomes of the resources of a handshake.

The answers of system calls and the clock readings come with the steps.  The error codes of the
results are left out, nobody reads them.  The parent's wait tests the *pointer* to the exit flag of
a worker, which is never null, so it goes on to `pthread_join` at once.
-/

/-! ### Memory -/

/-- `transport_type_t`. -/
inductive TransportType
  | tcp
  | rudpDirect
  | natT
  | dns
  | icmp
  deriving DecidableEq, Repr

/-- A complete handshake: its TLS context and what carries it, for TCP the socket and for the
    others the transport, of which `socketFd` is the application end. -/
structure Resources where
  socketFd : ℕ
  ssl : ℕ
  transport : ℕ
  deriving DecidableEq, Repr

/-- What a worker closes next to the TLS context. -/
def Resources.carrier (r : Resources) (type : TransportType) : ℕ :=
  if type = .tcp then r.socketFd else r.transport

/-- The part of a result that the parent takes over. -/
structure Payload where
  transportType : TransportType
  socketFd : ℤ
  sslCtx : Option ℕ
  ssl : Option ℕ
  transport : Option ℕ
  deriving DecidableEq, Repr

/-- `transport_result_t`. -/
structure TransportResult extends Payload where
  ok : Bool
  deriving DecidableEq, Repr

/-- The result as `calloc` makes it. -/
def TransportResult.zero : TransportResult := ⟨⟨.tcp, 0, none, none, none⟩, false⟩

/-- The first lines of a worker. -/
def TransportResult.reset (type : TransportType) : TransportResult :=
  ⟨⟨type, if type = .tcp then -1 else 0, none, none, none⟩, false⟩

/-- All that a worker writes for a handshake. -/
def Resources.payload (r : Resources) (type : TransportType) : Payload where
  transportType := type
  socketFd := r.socketFd
  sslCtx := some r.ssl
  ssl := some r.ssl
  transport := if type = .tcp then none else some r.transport

/-- `winner_published`: 0, 1 and -1. -/
inductive Publication
  | pending
  | published
  | abandoned
  deriving DecidableEq, Repr

/-- `race_control_t`. -/
structure RaceControl where
  cancelFlag : Bool
  winnerClaimed : Bool
  winnerPublished : Publication
  winnerIndex : ℤ
  raceTimeoutMs : ℕ
  raceDeadlineMs : ℕ
  /-- the pointers to the exit flags in the trampolines -/
  exitedPtr : ℕ → Option ℕ
  created : ℕ → Bool

/-! ### Threads -/

/-- How the body of a worker ended: without a handshake, with a published one, or with one whose
    resources it destroyed, having claimed the race before or not. -/
inductive Fate
  | failed
  | published (r : Resources)
  | destroyed (r : Resources) (claimed : Bool)
  deriving DecidableEq, Repr

/-- The next thing a worker does. -/
inductive WorkerPc
  /-- no thread -/
  | idle
  /-- the trampoline reads its slot, and the body clears its result -/
  | start
  /-- `race_remaining_budget_ms` -/
  | budget
  /-- behind the staggered delay: the cancel flag -/
  | delay
  /-- the rendezvous of the NAT-T worker, and the cancel flag -/
  | rendezvous
  | connect
  /-- the cancel flag, with the socket in hand -/
  | connected
  | handshake
  /-- the compare-and-swap on `winner_claimed` -/
  | claim (r : Resources)
  | writeIndex (r : Resources)
  | writeSocketFd (r : Resources)
  | writeSslCtx (r : Resources)
  | writeSsl (r : Resources)
  | writeTransport (r : Resources)
  /-- the compare-and-swap on `winner_published` -/
  | publish (r : Resources)
  | setOk (r : Resources)
  | destroySsl (r : Resources) (claimed : Bool)
  | destroyCarrier (r : Resources) (claimed : Bool)
  /-- the body has returned -/
  | returned (fate : Fate)
  /-- the exit flag is set -/
  | exiting (fate : Fate)
  | ended (fate : Fate)
  deriving DecidableEq, Repr

/-- The next thing the parent does. -/
inductive ParentPc
  | launch (k : ℕ)
  /-- the clock against the deadline -/
  | poll
  | pollPublished
  | pollIndex
  /-- the compare-and-swap on `winner_published` -/
  | revoke
  | recheck
  | recheckIndex
  | cancel
  | join (k : ℕ)
  | snapshot
  | free
  | promote
  | returned
  deriving DecidableEq, Repr

structure RaceState where
  types : List TransportType
  control : RaceControl
  results : ℕ → TransportResult
  exited : ℕ → Bool
  pcs : ℕ → WorkerPc
  parent : ParentPc
  /-- the parent's pointer into the results -/
  winner : Option ℕ
  joinDeadline : ℕ
  detachedCount : ℕ
  /-- the copy of the winner's fields -/
  copy : Option Payload
  /-- the control block and the contexts are freed -/
  freed : Bool

/-- The transport of a worker. -/
def RaceState.type (s : RaceState) (i : ℕ) : TransportType := s.types.getD i .tcp

/-- Worker `i` goes on at `pc`. -/
def RaceState.goto (s : RaceState) (i : ℕ) (pc : WorkerPc) : RaceState :=
  { s with pcs := Function.update s.pcs i pc }

/-- Worker `i` writes its result and goes on at `pc`. -/
def RaceState.write (s : RaceState) (i : ℕ) (f : TransportResult → TransportResult)
    (pc : WorkerPc) : RaceState :=
  { s.goto i pc with results := Function.update s.results i (f (s.results i)) }

/-- What becomes of a handshake's resources. -/
inductive RaceEvent
  | sslDestroyed (i ssl : ℕ)
  | carrierDestroyed (i carrier : ℕ)
  | adopted (i : ℕ) (payload : Payload)
  deriving DecidableEq, Repr

/-- What the system answers to a step: whether its call succeeds, the clock, and what a
    handshake is made of. -/
structure RaceAnswer where
  ok : Bool
  now : ℕ
  resources : Resources

/-! ### The workers -/

/-- One step of worker `i`. -/
def workerStep (s : RaceState) (i : ℕ) (ans : RaceAnswer) : RaceState × Option RaceEvent :=
  let failed := s.goto i (.returned .failed)
  match s.pcs i with
  | .idle => (s, none)
  | .start => (s.write i (fun _ => .reset (s.type i)) .budget, none)
  | .budget => (if s.control.raceDeadlineMs ≤ ans.now then failed else s.goto i .delay, none)
  | .delay =>
    -- all but the TCP worker parse the server's address here
    (if s.control.cancelFlag || (s.type i ≠ .tcp && !ans.ok) then failed
      else s.goto i (if s.type i = .natT then .rendezvous else .connect), none)
  | .rendezvous =>
    (if !ans.ok || s.control.cancelFlag then failed else s.goto i .connect, none)
  | .connect => (if !ans.ok then failed else s.goto i .connected, none)
  | .connected => (if s.control.cancelFlag then failed else s.goto i .handshake, none)
  | .handshake => (if !ans.ok then failed else s.goto i (.claim ans.resources), none)
  | .claim r =>
    if s.control.winnerClaimed then (s.goto i (.destroySsl r false), none)
    else
      ({ s.goto i (.writeIndex r) with control := { s.control with winnerClaimed := true } }, none)
  | .writeIndex r =>
    ({ s.goto i (.writeSocketFd r) with control := { s.control with winnerIndex := i } }, none)
  | .writeSocketFd r =>
    (s.write i (fun res => { res with socketFd := r.socketFd }) (.writeSslCtx r), none)
  | .writeSslCtx r => (s.write i (fun res => { res with sslCtx := some r.ssl }) (.writeSsl r), none)
  | .writeSsl r =>
    (s.write i (fun res => { res with ssl := some r.ssl }) (.writeTransport r), none)
  | .writeTransport r =>
    -- the TCP worker has no transport to write
    (if s.type i = .tcp then s.goto i (.publish r)
      else s.write i (fun res => { res with transport := some r.transport }) (.publish r), none)
  | .publish r =>
    if s.control.winnerPublished = .pending then
      ({ s.goto i (.setOk r) with control := { s.control with winnerPublished := .published } },
        none)
    else (s.goto i (.destroySsl r true), none)
  | .setOk r => (s.write i (fun res => { res with ok := true }) (.returned (.published r)), none)
  | .destroySsl r claimed => (s.goto i (.destroyCarrier r claimed), some (.sslDestroyed i r.ssl))
  | .destroyCarrier r claimed =>
    (s.goto i (.returned (.destroyed r claimed)),
      some (.carrierDestroyed i (r.carrier (s.type i))))
  | .returned fate =>
    ({ s.goto i (.exiting fate) with exited := Function.update s.exited i true }, none)
  | .exiting fate => (s.goto i (.ended fate), none)
  | .ended _ => (s, none)

/-! ### The parent -/

/-- The thread exists no more, or never did. -/
def WorkerPc.over : WorkerPc → Bool
  | .idle | .ended _ => true
  | _ => false

/-- The test on `winner_index`. -/
def raceWinner (numTransports : ℕ) (wi : ℤ) : Option ℕ :=
  if 0 ≤ wi ∧ wi < numTransports then some wi.toNat else none

/-- The parent at worker `k`: the wait, with what follows it. -/
def joinWorker (s : RaceState) (k : ℕ) (ans : RaceAnswer) : RaceState :=
  if !s.control.created k then { s with parent := .join (k + 1) }
  else
    match s.control.exitedPtr k with
    | none =>
      -- `pthread_detach`, past the deadline
      if s.joinDeadline ≤ ans.now then
        { s with detachedCount := s.detachedCount + 1, parent := .join (k + 1) }
      else s
    -- `pthread_join`
    | some _ => if (s.pcs k).over then { s with parent := .join (k + 1) } else s

/-- One step of the parent. -/
def parentStep (s : RaceState) (ans : RaceAnswer) : RaceState × Option RaceEvent :=
  let goto := fun pc => { s with parent := pc }
  match s.parent with
  | .launch k =>
    if k < s.types.length then
      ({ (if ans.ok then s.goto k .start else s) with
          control :=
            { s.control with
              exitedPtr := Function.update s.control.exitedPtr k (some k)
              created := Function.update s.control.created k ans.ok }
          parent := .launch (k + 1) },
        none)
    else (goto .poll, none)
  | .poll => (goto (if ans.now < s.control.raceDeadlineMs then .pollPublished else .revoke), none)
  | .pollPublished =>
    (goto (if s.control.winnerPublished = .published then .pollIndex else .poll), none)
  | .pollIndex =>
    ({ s with
        winner := raceWinner s.types.length s.control.winnerIndex
        parent := .revoke },
      none)
  | .revoke =>
    ({ s with
        control :=
          { s.control with
            winnerPublished :=
              if s.control.winnerPublished = .pending then .abandoned
              else s.control.winnerPublished }
        parent := .recheck },
      none)
  | .recheck =>
    (goto (if s.winner = none ∧ s.control.winnerPublished = .published then .recheckIndex
      else .cancel), none)
  | .recheckIndex =>
    ({ s with
        winner := raceWinner s.types.length s.control.winnerIndex
        parent := .cancel },
      none)
  | .cancel =>
    ({ s with
        control := { s.control with cancelFlag := true }
        joinDeadline := ans.now + s.control.raceTimeoutMs
        parent := .join 0 },
      none)
  | .join k =>
    if k < s.types.length then (joinWorker s k ans, none) else (goto .snapshot, none)
  | .snapshot =>
    ({ s with copy := s.winner.map fun i => (s.results i).toPayload, parent := .free }, none)
  | .free => ({ s with freed := s.detachedCount = 0, parent := .promote }, none)
  | .promote =>
    match s.winner, s.copy with
    | some i, some payload => (goto .returned, some (.adopted i payload))
    | _, _ => (goto .returned, none)
  | .returned => (s, none)

/-! ### The race -/

/-- Who makes the next step of the race, with the answer it meets. -/
inductive RaceAction
  | worker (i : ℕ) (ans : RaceAnswer)
  | parent (ans : RaceAnswer)

/-- One step, and what it does that others see. -/
def raceStep (s : RaceState) : RaceAction → RaceState × Option RaceEvent
  | .worker i ans => workerStep s i ans
  | .parent ans => parentStep s ans

/-- The transports of a race; `want_tcp` is 0 in the source. -/
def raceTransports (wantTcp : Bool) (udpPort : ℤ) : List TransportType :=
  (if wantTcp then [.tcp] else []) ++ (if 0 < udpPort then [.rudpDirect] else []) ++
    [.natT, .dns, .icmp]

/-- The race before its first thread is created. -/
def raceInit (wantTcp : Bool) (udpPort : ℤ) (now timeoutMs : ℕ) : RaceState where
  types := raceTransports wantTcp udpPort
  control :=
    { cancelFlag := false
      winnerClaimed := false
      winnerPublished := .pending
      winnerIndex := -1
      raceTimeoutMs := timeoutMs
      raceDeadlineMs := now + timeoutMs
      exitedPtr := fun _ => none
      created := fun _ => false }
  results := fun _ => .zero
  exited := fun _ => false
  pcs := fun _ => .idle
  parent := .launch 0
  winner := none
  joinDeadline := 0
  detachedCount := 0
  copy := none
  freed := false

end SoftEther.Connection
