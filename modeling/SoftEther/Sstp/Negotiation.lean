import SoftEther.Lib.Transition
import Mathlib.Order.MinMax
import Mathlib.Data.List.Nodup
import Mathlib.Tactic.SplitIfs

namespace SoftEther.Sstp

open Lib

/-!
# Negotiation of LCP, IPCP and IPv6CP (`client/ppp`)

Each side asks for its options until the other side acknowledges them. One loop does this for
the three protocols; what they ask for and what they accept is left to their clients.

* `PppOption`, `OptionPack` — the options of a configure frame, with the order they came in;
* `ConfigMethods` — the abstract methods of `ConfigClient`;
* `configStep` — one turn of the loop, next to the trace of frames and messages;
* `negotiation_proceeds_iff` — when the loop reports that it proceeded;
* `lcpClient`, `ipcpClient`, `ipv6cpClient` — the three clients;
* `lcp_agreement`, `address_agreement`, `identifier_agreement` — what both sides have then
  agreed on.
-/

/-! ### Messages to the controller -/

/-- `Where`, for the clients of a negotiation. -/
inductive Where
  | lcp | lcpMru | lcpAuth | ipcp | ipcpIp | ipv6cp | ipv6cpIdentifier
  deriving DecidableEq

/-- `Result`, as far as a negotiation reports it. -/
inductive Result
  | proceeded | errCountExhausted | errAddressRejected | errOptionRejected
  deriving DecidableEq

/-! ### Options -/

/-- The options of the three protocols. -/
inductive PppOption
  | mru (unitSize : ℕ)
  | auth (protocol : ℕ) (holder : List UInt8)
  | address (type : UInt8) (address : List UInt8)
  | identifier (identifier : List UInt8)
  | unknown (type : UInt8) (holder : List UInt8)
  deriving DecidableEq

def optionTypeLcpMru : UInt8 := 1
def optionTypeLcpAuth : UInt8 := 3
def optionTypeIpcpIp : UInt8 := 0x03
def optionTypeIpcpDns : UInt8 := 0x81
def optionTypeIpv6cpIdentifier : UInt8 := 0x01

/-- The number of an option. -/
def PppOption.type : PppOption → UInt8
  | mru _ => optionTypeLcpMru
  | auth _ _ => optionTypeLcpAuth
  | address t _ => t
  | identifier _ => optionTypeIpv6cpIdentifier
  | unknown t _ => t

/-- An option that no client knows. -/
def PppOption.isUnknown : PppOption → Bool
  | unknown _ _ => true
  | _ => false

/-- The protocols with configure frames. -/
inductive Kind
  | lcp
  | ipcp
  | ipv6cp
  deriving DecidableEq

/-- The types of `knownOptions`, in their order there. -/
def Kind.slots : Kind → List UInt8
  | .lcp => [optionTypeLcpMru, optionTypeLcpAuth]
  | .ipcp => [optionTypeIpcpIp, optionTypeIpcpDns]
  | .ipv6cp => [optionTypeIpv6cpIdentifier]

/-- A `MutableMap<Byte, Int>`. -/
abbrev Order := List (UInt8 × ℕ)

/-- A place for a number. -/
def Order.put (m : Order) (type : UInt8) (index : ℕ) : Order :=
  (type, index) :: m.filter (fun entry => entry.1 ≠ type)

/-- An option pack: the known options by their types, the unknown ones, and the order. -/
structure OptionPack (k : Kind) where
  slot : UInt8 → Option PppOption
  unknownOptions : List PppOption
  order : Order

namespace OptionPack

variable {k : Kind}

/-- A pack without options. -/
def empty : OptionPack k := ⟨fun _ => none, [], []⟩

/-- A known option is set. -/
def set (p : OptionPack k) (o : PppOption) : OptionPack k :=
  { p with slot := Function.update p.slot o.type (some o) }

/-- The options that the client knows. -/
def knownOptions (p : OptionPack k) : List PppOption := k.slots.filterMap p.slot

def allOptions (p : OptionPack k) : List PppOption := p.knownOptions ++ p.unknownOptions

/-- The places of the options in the order they were read, from `i` on. -/
def readOrder (m : Order) (i : ℕ) : List PppOption → Order
  | [] => m
  | o :: os => readOrder (m.put o.type i) (i + 1) os

/-- The pack of the options that were read; the last one of a type is preferred. -/
def ofOptions (k : Kind) (os : List PppOption) : OptionPack k where
  slot type := if type ∈ k.slots then os.reverse.find? (fun o => o.type = type) else none
  unknownOptions := os.filter PppOption.isUnknown
  order := readOrder [] 0 os

end OptionPack

def pppProtocolPap : ℕ := 0xC023
def pppProtocolChap : ℕ := 0xC223
def pppProtocolEap : ℕ := 0xC227

def lcpCodeConfigureRequest : UInt8 := 1
def lcpCodeConfigureAck : UInt8 := 2
def lcpCodeConfigureNak : UInt8 := 3
def lcpCodeConfigureReject : UInt8 := 4

/-! ### The loop -/

structure ControlMessage where
  place : Where
  result : Result
  deriving DecidableEq

/-- What a negotiation has sent, received and reported, the latest first. -/
inductive Entry (k : Kind)
  | sent (code id : UInt8) (options : OptionPack k)
  | received (code id : UInt8) (options : OptionPack k)
  | reported (message : ControlMessage)

/-- What differs between the clients; `σ` holds their own fields and those of the bridge that they
    write. A `NotImplementedError` is `none`. -/
structure ConfigMethods (k : Kind) (σ : Type) where
  place : Where
  tryCreateServerReject : OptionPack k → Option (OptionPack k)
  tryCreateServerNak : σ → OptionPack k → Option (σ × Option (OptionPack k))
  createClientRequest : σ → σ × OptionPack k
  tryAcceptClientReject : σ → OptionPack k → σ × List ControlMessage
  tryAcceptClientNak : σ → OptionPack k → σ × List ControlMessage

/-- How far a negotiation is. -/
inductive NegotiationPhase
  | running
  | opened
  | thrown
  | cancelled
  deriving DecidableEq

/-- A negotiation; `allocated` is the number of ids given out by `allocateNewFrameID`. -/
structure Negotiation (k : Kind) (σ : Type) where
  data : σ
  allocated : ℕ
  requestID : UInt8
  requestCount : ℤ
  isClientReady : Bool
  isServerReady : Bool
  phase : NegotiationPhase
  trace : List (Entry k)

/-- The requests that are sent before the client gives up. -/
def pppRequestCount : ℤ := 10

namespace Negotiation

variable {k : Kind} {σ : Type}

/-- What is done is noted, in its order. -/
def log (n : Negotiation k σ) (entries : List (Entry k)) : Negotiation k σ :=
  { n with trace := entries.reverse ++ n.trace }

def consumeRequestCounter (m : ConfigMethods k σ) (n : Negotiation k σ) : Negotiation k σ :=
  let n := { n with requestCount := n.requestCount - 1 }
  -- the loop goes on behind the report, and so does the counter
  if n.requestCount < 0 then n.log [.reported ⟨m.place, .errCountExhausted⟩] else n

/-- The id of a frame is the low byte of a counter that all clients share. -/
def sendClientRequest (m : ConfigMethods k σ) (n : Negotiation k σ) : Negotiation k σ :=
  let n := n.consumeRequestCounter m
  let id := UInt8.ofNat n.allocated
  let request := m.createClientRequest n.data
  { n with
    data := request.1
    allocated := n.allocated + 1
    requestID := id
    trace := .sent lcpCodeConfigureRequest id request.2 :: n.trace }

/-- The end of a turn. -/
def checkOpen (m : ConfigMethods k σ) (n : Negotiation k σ) : Negotiation k σ :=
  if n.isClientReady && n.isServerReady then
    { n with
      requestCount := pppRequestCount
      phase := .opened
      trace := .reported ⟨m.place, .proceeded⟩ :: n.trace }
  else n

/-- A request of the server is rejected, or else corrected, or else acknowledged. -/
def receiveRequest (m : ConfigMethods k σ) (id : UInt8) (options : OptionPack k)
    (n : Negotiation k σ) : Negotiation k σ :=
  -- a request takes back what was acknowledged before it
  let n := { n with isServerReady := false }
  match m.tryCreateServerReject options with
  | some reject => n.log [.sent lcpCodeConfigureReject id reject]
  | none =>
    match m.tryCreateServerNak n.data options with
    | none => { n with phase := .thrown }
    | some (data, some nak) =>
      { n with data := data }.log [.sent lcpCodeConfigureNak id nak]
    | some (data, none) =>
      checkOpen m
        { n with
          data := data
          isServerReady := true
          trace := .sent lcpCodeConfigureAck id options :: n.trace }

/-- An answer of the server: one that comes when the client is ready starts it again, and one to an
    older request is ignored. -/
def receiveAnswer (m : ConfigMethods k σ) (code id : UInt8) (options : OptionPack k)
    (n : Negotiation k σ) : Negotiation k σ :=
  if n.isClientReady then { n with isClientReady := false }.sendClientRequest m
  else if id ≠ n.requestID then n
  else if code = lcpCodeConfigureAck then checkOpen m { n with isClientReady := true }
  else if code = lcpCodeConfigureNak then
    let accepted := m.tryAcceptClientNak n.data options
    checkOpen m (({ n with data := accepted.1 }.log (accepted.2.map .reported)).sendClientRequest m)
  else if code = lcpCodeConfigureReject then
    let accepted := m.tryAcceptClientReject n.data options
    checkOpen m (({ n with data := accepted.1 }.log (accepted.2.map .reported)).sendClientRequest m)
  else checkOpen m n

end Negotiation

/-- What happens to a negotiation: a frame, three seconds without one, an id given out to another
    client, and the end. -/
inductive ConfigEvent (k : Kind)
  | receive (code id : UInt8) (options : OptionPack k)
  | timeout
  | allocate
  | cancel

open Negotiation in
/-- One turn of `launchJobNegotiation`. -/
def configStep {k : Kind} {σ : Type} (m : ConfigMethods k σ) (n : Negotiation k σ) :
    ConfigEvent k → Negotiation k σ
  | .receive code id options =>
    if n.phase = .running then
      let n := n.log [.received code id options]
      if code = lcpCodeConfigureRequest then n.receiveRequest m id options
      else n.receiveAnswer m code id options
    else n
  | .timeout =>
    if n.phase = .running then { n with isClientReady := false }.sendClientRequest m else n
  | .allocate => { n with allocated := n.allocated + 1 }
  | .cancel => if n.phase = .running then { n with phase := .cancelled } else n

/-- `launchJobNegotiation` up to the loop. -/
def launchJobNegotiation {k : Kind} {σ : Type} (m : ConfigMethods k σ) (data : σ)
    (allocated : ℕ) : Negotiation k σ :=
  Negotiation.sendClientRequest m
    { data := data
      allocated := allocated
      requestID := 0
      requestCount := pppRequestCount
      isClientReady := false
      isServerReady := false
      phase := .running
      trace := [] }

/-! ### What a trace shows -/

section Trace

variable {k : Kind}

/-- The last request that was sent. -/
def lastSent : List (Entry k) → Option (UInt8 × OptionPack k)
  | [] => none
  | .sent code id options :: trace =>
    if code = lcpCodeConfigureRequest then some (id, options) else lastSent trace
  | .received _ _ _ :: trace => lastSent trace
  | .reported _ :: trace => lastSent trace

/-- The last request that was received. -/
def lastReceived : List (Entry k) → Option (UInt8 × OptionPack k)
  | [] => none
  | .received code id options :: trace =>
    if code = lcpCodeConfigureRequest then some (id, options) else lastReceived trace
  | .sent _ _ _ :: trace => lastReceived trace
  | .reported _ :: trace => lastReceived trace

/-- An acknowledgement with the id of our last request came after it. -/
def OurRequestAcked : List (Entry k) → Prop
  | [] => False
  | .sent code _ _ :: trace => code ≠ lcpCodeConfigureRequest ∧ OurRequestAcked trace
  | .received code id _ :: trace =>
    OurRequestAcked trace ∨
      code = lcpCodeConfigureAck ∧ ∃ options, lastSent trace = some (id, options)
  | .reported _ :: trace => OurRequestAcked trace

/-- The last request of the server was acknowledged, with its id and its options. -/
def TheirRequestAcked : List (Entry k) → Prop
  | [] => False
  | .received code _ _ :: trace => code ≠ lcpCodeConfigureRequest ∧ TheirRequestAcked trace
  | .sent code id options :: trace =>
    TheirRequestAcked trace ∨
      code = lcpCodeConfigureAck ∧ lastReceived trace = some (id, options)
  | .reported _ :: trace => TheirRequestAcked trace

/-- A request that was sent. -/
def isRequest : Entry k → Bool
  | .sent code _ _ => code = lcpCodeConfigureRequest
  | _ => false

/-- The messages of a kind. -/
def isReport (message : ControlMessage) : Entry k → Bool
  | .reported reported => reported = message
  | _ => false

variable {trace : List (Entry k)} {id : UInt8} {options : OptionPack k}

@[simp] theorem lastSent_request :
    lastSent (.sent lcpCodeConfigureRequest id options :: trace) = some (id, options) := if_pos rfl

@[simp] theorem ours_request :
    ¬ OurRequestAcked (.sent lcpCodeConfigureRequest id options :: trace) := fun h => h.1 rfl

@[simp] theorem theirs_request :
    ¬ TheirRequestAcked (.received lcpCodeConfigureRequest id options :: trace) := fun h => h.1 rfl

/-- A frame that is sent and is no request says nothing about ours. -/
theorem ours_sent {code : UInt8} (h : code ≠ lcpCodeConfigureRequest) :
    OurRequestAcked (.sent code id options :: trace) ↔ OurRequestAcked trace :=
  ⟨And.right, fun hours => ⟨h, hours⟩⟩

theorem lastSent_sent {code : UInt8} (h : code ≠ lcpCodeConfigureRequest) :
    lastSent (.sent code id options :: trace) = lastSent trace := if_neg h

/-- A frame that is received and is no acknowledgement does not either. -/
theorem ours_received {code : UInt8} (h : code ≠ lcpCodeConfigureAck) :
    OurRequestAcked (.received code id options :: trace) ↔ OurRequestAcked trace :=
  ⟨fun hours => hours.resolve_right (fun hack => h hack.1), Or.inl⟩

/-- A frame that is sent and is no acknowledgement says nothing about theirs. -/
theorem theirs_sent {code : UInt8} (h : code ≠ lcpCodeConfigureAck) :
    TheirRequestAcked (.sent code id options :: trace) ↔ TheirRequestAcked trace :=
  ⟨fun htheirs => htheirs.resolve_right (fun hack => h hack.1), Or.inl⟩

theorem theirs_received {code : UInt8} (h : code ≠ lcpCodeConfigureRequest) :
    TheirRequestAcked (.received code id options :: trace) ↔ TheirRequestAcked trace :=
  ⟨And.right, fun htheirs => ⟨h, htheirs⟩⟩

/-- Messages to the controller do not count. -/
theorem theirs_reported (messages : List ControlMessage) (trace : List (Entry k)) :
    TheirRequestAcked ((messages.map Entry.reported).reverse ++ trace) ↔
      TheirRequestAcked trace := by
  induction messages generalizing trace with
  | nil => exact Iff.rfl
  | cons message messages ih =>
    rw [List.map_cons, List.reverse_cons, List.append_assoc]
    exact ih (.reported message :: trace)

end Trace

/-! ### The invariant of a negotiation -/

section Invariant

variable {k : Kind} {σ : Type}

/-- Clients object to an answer, but they do not report what the loop reports. -/
structure ConfigMethods.Lawful (m : ConfigMethods k σ) : Prop where
  reject_message : ∀ data options, ∀ message ∈ (m.tryAcceptClientReject data options).2,
    message.result = .errOptionRejected
  nak_message : ∀ data options, ∀ message ∈ (m.tryAcceptClientNak data options).2,
    message.result = .errAddressRejected
  /-- What is asked for changes with an answer only. -/
  request_again : ∀ data, (m.createClientRequest (m.createClientRequest data).1).2 =
    (m.createClientRequest data).2
  request_nak : ∀ data options data' nak, m.tryCreateServerNak data options = some (data', nak) →
    (m.createClientRequest data').2 = (m.createClientRequest data).2

/-- **How often the loop asks**: the counter has what is left of ten requests, and every one
    beyond them is reported. -/
structure Counted (m : ConfigMethods k σ) (n : Negotiation k σ) : Prop where
  proceeded : n.trace.countP (isReport ⟨m.place, .proceeded⟩) = 0
  count : n.requestCount + (n.trace.countP isRequest : ℤ) = pppRequestCount
  exhausted : n.trace.countP (isReport ⟨m.place, .errCountExhausted⟩) =
    n.trace.countP isRequest - 10

/-- **The invariant of the loop**: the two flags say what the trace shows. -/
structure NegotiationOk (m : ConfigMethods k σ) (n : Negotiation k σ) : Prop where
  ours : n.isClientReady = true ↔ OurRequestAcked n.trace
  theirs : n.isServerReady = true ↔ TheirRequestAcked n.trace
  asked : lastSent n.trace = some (n.requestID, (m.createClientRequest n.data).2)
  opened : n.phase = .opened ↔ n.isClientReady = true ∧ n.isServerReady = true
  running : n.phase ≠ .opened → Counted m n
  done : n.phase = .opened → n.trace.countP (isReport ⟨m.place, .proceeded⟩) = 1 ∧
    n.trace.countP (isReport ⟨m.place, .errCountExhausted⟩) = n.trace.countP isRequest - 10

namespace Counted

variable {m : ConfigMethods k σ} {n n' : Negotiation k σ}

/-- Only the counter and the trace matter. -/
theorem congr (h : Counted m n) (hcount : n'.requestCount = n.requestCount)
    (htrace : n'.trace = n.trace) : Counted m n' := by
  obtain ⟨hproceeded, hrequests, hexhausted⟩ := h
  rw [← htrace] at hproceeded hrequests hexhausted
  rw [← hcount] at hrequests
  exact ⟨hproceeded, hrequests, hexhausted⟩

/-- An entry of no count. -/
theorem cons (h : Counted m n) {e : Entry k} (hcount : n'.requestCount = n.requestCount)
    (htrace : n'.trace = e :: n.trace) (hrequest : isRequest e = false)
    (hproceeded : isReport ⟨m.place, .proceeded⟩ e = false)
    (hexhausted : isReport ⟨m.place, .errCountExhausted⟩ e = false) : Counted m n' := by
  refine ⟨?_, ?_, ?_⟩
  · rw [htrace, List.countP_cons_of_neg (by rw [hproceeded]; decide), h.proceeded]
  · rw [htrace, hcount, List.countP_cons_of_neg (by rw [hrequest]; decide), h.count]
  · rw [htrace, List.countP_cons_of_neg (by rw [hexhausted]; decide),
      List.countP_cons_of_neg (by rw [hrequest]; decide), h.exhausted]

/-- The objections of a client have no count. -/
theorem objections (h : Counted m n) (messages : List ControlMessage)
    (hresult : ∀ message ∈ messages, message.result ≠ .proceeded ∧
      message.result ≠ .errCountExhausted) :
    Counted m (n.log (messages.map .reported)) := by
  induction messages generalizing n with
  | nil => exact h
  | cons message messages ih =>
    obtain ⟨hfirst, hrest⟩ := List.forall_mem_cons.mp hresult
    have hnext : Counted m (n.log [.reported message]) := by
      refine h.cons rfl rfl rfl (decide_eq_false ?_) (decide_eq_false ?_)
      · rintro rfl
        exact hfirst.1 rfl
      · rintro rfl
        exact hfirst.2 rfl
    refine (ih hnext hrest).congr rfl ?_
    show (Entry.reported message :: messages.map Entry.reported).reverse ++ n.trace = _
    rw [List.reverse_cons, List.append_assoc]
    rfl

/-- One request more: the counter goes down, and below zero it is reported. -/
theorem sendClientRequest (h : Counted m n) : Counted m (n.sendClientRequest m) := by
  have hexhausted := h.exhausted
  have hcount := h.count
  have hten : pppRequestCount = 10 := rfl
  unfold Negotiation.sendClientRequest Negotiation.consumeRequestCounter
  dsimp only
  split_ifs with hlow
  -- the report and the request are two entries, of which each count takes one
  · refine ⟨?_, ?_, ?_⟩
    · show (Entry.sent _ _ _ :: Entry.reported _ :: n.trace).countP _ = 0
      rw [List.countP_cons_of_neg (by exact nofun), List.countP_cons_of_neg, h.proceeded]
      exact fun hsame => absurd (of_decide_eq_true hsame) nofun
    · show n.requestCount - 1 + ((Entry.sent _ _ _ :: Entry.reported _ :: n.trace).countP _ : ℤ) = _
      rw [List.countP_cons_of_pos (by rfl), List.countP_cons_of_neg (by exact nofun)]
      omega
    · show (Entry.sent _ _ _ :: Entry.reported _ :: n.trace).countP _ =
        (Entry.sent _ _ _ :: Entry.reported _ :: n.trace).countP _ - 10
      rw [List.countP_cons_of_neg (by exact nofun),
        List.countP_cons_of_pos (by exact decide_eq_true rfl), List.countP_cons_of_pos (by rfl),
        List.countP_cons_of_neg (by exact nofun)]
      omega
  · refine ⟨?_, ?_, ?_⟩
    · show (Entry.sent _ _ _ :: n.trace).countP _ = 0
      rw [List.countP_cons_of_neg (by exact nofun), h.proceeded]
    · show n.requestCount - 1 + ((Entry.sent _ _ _ :: n.trace).countP _ : ℤ) = _
      rw [List.countP_cons_of_pos (by rfl)]
      omega
    · show (Entry.sent _ _ _ :: n.trace).countP _ = (Entry.sent _ _ _ :: n.trace).countP _ - 10
      rw [List.countP_cons_of_neg (by exact nofun), List.countP_cons_of_pos (by rfl)]
      omega

end Counted

/-- What a request leaves behind. -/
theorem sendClientRequest_spec (m : ConfigMethods k σ) (n : Negotiation k σ) :
    lastSent (n.sendClientRequest m).trace =
        some ((n.sendClientRequest m).requestID, (m.createClientRequest n.data).2) ∧
      ¬ OurRequestAcked (n.sendClientRequest m).trace ∧
      (TheirRequestAcked (n.sendClientRequest m).trace ↔ TheirRequestAcked n.trace) ∧
      (n.sendClientRequest m).isClientReady = n.isClientReady ∧
      (n.sendClientRequest m).isServerReady = n.isServerReady ∧
      (n.sendClientRequest m).phase = n.phase ∧
      (n.sendClientRequest m).data = (m.createClientRequest n.data).1 := by
  have hne : lcpCodeConfigureRequest ≠ lcpCodeConfigureAck := by decide
  unfold Negotiation.sendClientRequest Negotiation.consumeRequestCounter
  dsimp only
  split_ifs
  · exact ⟨lastSent_request, ours_request, theirs_sent hne, rfl, rfl, rfl, rfl⟩
  · exact ⟨lastSent_request, ours_request, theirs_sent hne, rfl, rfl, rfl, rfl⟩

namespace NegotiationOk

variable {m : ConfigMethods k σ} {n : Negotiation k σ}

/-- A client that is not ready asks again. -/
theorem ask (hm : m.Lawful) (hphase : n.phase = .running) (hclient : n.isClientReady = false)
    (htheirs : n.isServerReady = true ↔ TheirRequestAcked n.trace) (hcounted : Counted m n) :
    NegotiationOk m (n.sendClientRequest m) := by
  obtain ⟨hlast, hours, htrace, hready, hserver, hsame, hdata⟩ := sendClientRequest_spec m n
  have hrunning : (n.sendClientRequest m).phase ≠ .opened := by
    rw [hsame, hphase]
    decide
  refine ⟨?_, ?_, ?_, ?_, ?_, ?_⟩
  · rw [hready, hclient]
    exact iff_of_false nofun hours
  · rw [hserver, htrace]
    exact htheirs
  · rw [hlast, hdata, hm.request_again]
  · rw [hready, hclient]
    exact iff_of_false hrunning (fun h => absurd h.1 nofun)
  · exact fun _ => hcounted.sendClientRequest
  · exact fun hopened => absurd hopened hrunning

/-- The end of a turn in which the flags were set. -/
theorem check (hphase : n.phase = .running)
    (hours : n.isClientReady = true ↔ OurRequestAcked n.trace)
    (htheirs : n.isServerReady = true ↔ TheirRequestAcked n.trace)
    (hasked : lastSent n.trace = some (n.requestID, (m.createClientRequest n.data).2))
    (hcounted : Counted m n) : NegotiationOk m (n.checkOpen m) := by
  unfold Negotiation.checkOpen
  split_ifs with hopen
  · rw [Bool.and_eq_true] at hopen
    refine ⟨hours, htheirs, hasked, iff_of_true rfl hopen, fun h => absurd rfl h, fun _ => ⟨?_, ?_⟩⟩
    · show (Entry.reported _ :: n.trace).countP _ = 1
      rw [List.countP_cons_of_pos (by exact decide_eq_true rfl), hcounted.proceeded]
    · show (Entry.reported _ :: n.trace).countP _ = (Entry.reported _ :: n.trace).countP _ - 10
      rw [List.countP_cons_of_neg, List.countP_cons_of_neg (by exact nofun), hcounted.exhausted]
      exact fun hsame => absurd (of_decide_eq_true hsame) nofun
  · have hrunning : n.phase ≠ .opened := by
      rw [hphase]
      decide
    rw [Bool.and_eq_true] at hopen
    exact ⟨hours, htheirs, hasked, iff_of_false hrunning hopen, fun _ => hcounted,
      fun hopened => absurd hopened hrunning⟩

/-- A running loop is not ready on both sides. -/
theorem not_both (h : NegotiationOk m n) (hphase : n.phase = .running) :
    ¬ (n.isClientReady = true ∧ n.isServerReady = true) := by
  rw [← h.opened, hphase]
  decide

theorem counted (h : NegotiationOk m n) (hphase : n.phase = .running) : Counted m n := by
  refine h.running ?_
  rw [hphase]
  decide

/-- A request of the server. -/
theorem receiveRequest (hm : m.Lawful) (h : NegotiationOk m n) (hphase : n.phase = .running)
    (id : UInt8) (options : OptionPack k) :
    NegotiationOk m
      ((n.log [.received lcpCodeConfigureRequest id options]).receiveRequest m id options) := by
  have hreject : lcpCodeConfigureReject ≠ lcpCodeConfigureRequest := by decide
  have hreject' : lcpCodeConfigureReject ≠ lcpCodeConfigureAck := by decide
  have hnak : lcpCodeConfigureNak ≠ lcpCodeConfigureRequest := by decide
  have hnak' : lcpCodeConfigureNak ≠ lcpCodeConfigureAck := by decide
  have hack : lcpCodeConfigureAck ≠ lcpCodeConfigureRequest := by decide
  have hne : lcpCodeConfigureRequest ≠ lcpCodeConfigureAck := by decide
  have hrunning : n.phase ≠ .opened := by
    rw [hphase]
    decide
  have hcounted : Counted m (n.log [.received lcpCodeConfigureRequest id options]) :=
    (h.counted hphase).cons rfl rfl rfl rfl rfl
  have hours : n.isClientReady = true ↔
      OurRequestAcked (.received lcpCodeConfigureRequest id options :: n.trace) :=
    h.ours.trans (ours_received hne).symm
  unfold Negotiation.receiveRequest
  dsimp only
  cases m.tryCreateServerReject options with
  | some reject =>
    -- the flag is down, and a reject acknowledges nothing
    refine ⟨hours.trans (ours_sent hreject).symm, ?_, ?_, ?_, ?_, ?_⟩
    · exact iff_of_false nofun (fun h => theirs_request ((theirs_sent hreject').mp h))
    · exact (lastSent_sent hreject).trans h.asked
    · exact iff_of_false hrunning (fun h => absurd h.2 nofun)
    · exact fun _ => hcounted.cons rfl rfl rfl rfl rfl
    · exact fun hopened => absurd hopened hrunning
  | none =>
    dsimp only
    cases hcreate : m.tryCreateServerNak n.data options with
    | none =>
      have hcreate' : m.tryCreateServerNak
          (n.log [.received lcpCodeConfigureRequest id options]).data options = none := hcreate
      rw [hcreate']
      refine ⟨hours, iff_of_false nofun theirs_request, h.asked, ?_, ?_, fun h => absurd h nofun⟩
      · exact iff_of_false nofun (fun h => absurd h.2 nofun)
      · exact fun _ => hcounted.congr rfl rfl
    | some created =>
      obtain ⟨data, nak⟩ := created
      have hcreate' : m.tryCreateServerNak
          (n.log [.received lcpCodeConfigureRequest id options]).data options = some (data, nak) :=
        hcreate
      have hasked : lastSent n.trace = some (n.requestID, (m.createClientRequest data).2) := by
        rw [hm.request_nak n.data options data nak hcreate]
        exact h.asked
      rw [hcreate']
      cases nak with
      | some nak =>
        refine ⟨hours.trans (ours_sent hnak).symm, ?_, ?_, ?_, ?_, ?_⟩
        · exact iff_of_false nofun (fun h => theirs_request ((theirs_sent hnak').mp h))
        · exact (lastSent_sent hnak).trans hasked
        · exact iff_of_false hrunning (fun h => absurd h.2 nofun)
        · exact fun _ => hcounted.cons rfl rfl rfl rfl rfl
        · exact fun hopened => absurd hopened hrunning
      | none =>
        -- the acknowledgement is the last entry, behind the request that it answers
        refine check hphase (hours.trans (ours_sent hack).symm) ?_ ?_ ?_
        · exact iff_of_true rfl (.inr ⟨rfl, if_pos rfl⟩)
        · exact (lastSent_sent hack).trans hasked
        · exact hcounted.cons rfl rfl rfl rfl rfl

/-- An objection, and a new request. -/
theorem object (hm : m.Lawful) (hphase : n.phase = .running) (hclient : n.isClientReady = false)
    (htheirs : n.isServerReady = true ↔ TheirRequestAcked n.trace) (hcounted : Counted m n)
    (data : σ) (messages : List ControlMessage)
    (hresult : ∀ message ∈ messages, message.result ≠ .proceeded ∧
      message.result ≠ .errCountExhausted) :
    NegotiationOk m ((({ n with data := data }.log (messages.map .reported)).sendClientRequest
      m).checkOpen m) := by
  have htrace : TheirRequestAcked ({ n with data := data }.log (messages.map .reported)).trace ↔
      TheirRequestAcked n.trace := theirs_reported messages n.trace
  have hcounted' : Counted m ({ n with data := data }.log (messages.map .reported)) :=
    Counted.objections (n := { n with data := data }) (hcounted.congr rfl rfl) messages hresult
  have hask : NegotiationOk m
      (({ n with data := data }.log (messages.map .reported)).sendClientRequest m) :=
    ask hm hphase hclient (htheirs.trans htrace.symm) hcounted'
  have hready : (({ n with data := data }.log (messages.map .reported)).sendClientRequest
      m).isClientReady = false := (sendClientRequest_spec m _).2.2.2.1.trans hclient
  -- the new request is not acknowledged, so the end of the turn does nothing
  unfold Negotiation.checkOpen
  rw [hready, Bool.false_and, if_neg (by decide)]
  exact hask

/-- An answer of the server. -/
theorem receiveAnswer (hm : m.Lawful) (h : NegotiationOk m n) (hphase : n.phase = .running)
    {code : UInt8} (id : UInt8) (options : OptionPack k) (hcode : code ≠ lcpCodeConfigureRequest) :
    NegotiationOk m ((n.log [.received code id options]).receiveAnswer m code id options) := by
  have hcounted : Counted m (n.log [.received code id options]) :=
    (h.counted hphase).cons rfl rfl rfl rfl rfl
  have htheirs : n.isServerReady = true ↔
      TheirRequestAcked (.received code id options :: n.trace) :=
    h.theirs.trans (theirs_received hcode).symm
  unfold Negotiation.receiveAnswer
  split_ifs with hready hid hack hnak hreject
  · -- our request had been acknowledged
    exact ask hm hphase rfl htheirs (hcounted.congr rfl rfl)
  · -- an answer to an older request
    have hrunning : n.phase ≠ .opened := by
      rw [hphase]
      decide
    refine ⟨h.ours.trans ⟨Or.inl, fun hours => hours.resolve_right ?_⟩, htheirs, h.asked, h.opened,
      fun _ => hcounted, fun hopened => absurd hopened hrunning⟩
    rintro ⟨-, options', hlast⟩
    have hsame : some (n.requestID, (m.createClientRequest n.data).2) = some (id, options') :=
      h.asked.symm.trans hlast
    rw [Option.some.injEq, Prod.mk.injEq] at hsame
    exact hid hsame.1.symm
  · -- the acknowledgement of our last request
    rw [not_not] at hid
    refine check hphase (iff_of_true rfl (.inr ⟨hack, (m.createClientRequest n.data).2, ?_⟩))
      htheirs h.asked (hcounted.congr rfl rfl)
    exact h.asked.trans (by rw [hid]; rfl)
  · have hclient : n.isClientReady = false := Bool.eq_false_iff.mpr hready
    refine object (n := n.log [.received code id options]) hm hphase hclient htheirs hcounted _ _
      (fun message hmessage => ?_)
    rw [hm.nak_message _ _ message hmessage]
    exact ⟨nofun, nofun⟩
  · have hclient : n.isClientReady = false := Bool.eq_false_iff.mpr hready
    refine object (n := n.log [.received code id options]) hm hphase hclient htheirs hcounted _ _
      (fun message hmessage => ?_)
    rw [hm.reject_message _ _ message hmessage]
    exact ⟨nofun, nofun⟩
  · exact check hphase (h.ours.trans (ours_received hack).symm) htheirs h.asked hcounted

theorem step (hm : m.Lawful) (h : NegotiationOk m n) (e : ConfigEvent k) :
    NegotiationOk m (configStep m n e) := by
  cases e with
  | receive code id options =>
    show NegotiationOk m (if n.phase = .running then _ else n)
    split_ifs with hphase hcode
    · subst hcode
      exact h.receiveRequest hm hphase id options
    · exact h.receiveAnswer hm hphase id options hcode
    · exact h
  | timeout =>
    show NegotiationOk m (if n.phase = .running then _ else n)
    split_ifs with hphase
    · exact ask hm hphase rfl h.theirs ((h.counted hphase).congr rfl rfl)
    · exact h
  | allocate =>
    exact ⟨h.ours, h.theirs, h.asked, h.opened, fun hphase => (h.running hphase).congr rfl rfl,
      h.done⟩
  | cancel =>
    show NegotiationOk m (if n.phase = .running then _ else n)
    split_ifs with hphase
    · refine ⟨h.ours, h.theirs, h.asked, iff_of_false nofun (h.not_both hphase),
        fun _ => (h.counted hphase).congr rfl rfl, nofun⟩
    · exact h

end NegotiationOk

theorem launchJobNegotiation_ok {m : ConfigMethods k σ} (hm : m.Lawful) (data : σ)
    (allocated : ℕ) : NegotiationOk m (launchJobNegotiation m data allocated) :=
  NegotiationOk.ask hm rfl rfl (iff_of_false nofun id) ⟨rfl, rfl, rfl⟩

/-- A negotiation after these events. -/
def negotiate (m : ConfigMethods k σ) (data : σ) (allocated : ℕ) (events : List (ConfigEvent k)) :
    Negotiation k σ :=
  run (configStep m) (launchJobNegotiation m data allocated) events

theorem negotiate_ok {m : ConfigMethods k σ} (hm : m.Lawful) (data : σ) (allocated : ℕ)
    (events : List (ConfigEvent k)) : NegotiationOk m (negotiate m data allocated events) :=
  run_invariant (fun _ e h => h.step hm e) (launchJobNegotiation_ok hm data allocated) events

/-- **When a negotiation proceeds.** In every run, with any frames, time-outs and ids given out to
    others: the loop is left for `PROCEEDED`, which is reported once, exactly when our last
    request was acknowledged with its id and the last request of the server was acknowledged as
    it was. Every request beyond the tenth is reported, and no other. -/
theorem negotiation_proceeds_iff (m : ConfigMethods k σ) (hm : m.Lawful) (data : σ) (allocated : ℕ)
    (events : List (ConfigEvent k)) :
    let n := negotiate m data allocated events
    (n.phase = .opened ↔ OurRequestAcked n.trace ∧ TheirRequestAcked n.trace) ∧
      n.trace.countP (isReport ⟨m.place, .proceeded⟩) = (if n.phase = .opened then 1 else 0) ∧
      n.trace.countP (isReport ⟨m.place, .errCountExhausted⟩) = n.trace.countP isRequest - 10 := by
  have h := negotiate_ok hm data allocated events
  dsimp only
  rw [← h.ours, ← h.theirs]
  refine ⟨h.opened, ?_⟩
  by_cases hopened : (negotiate m data allocated events).phase = .opened
  · rw [if_pos hopened]
    exact h.done hopened
  · have hcounted := h.running hopened
    rw [if_neg hopened]
    exact ⟨hcounted.proceeded, hcounted.exhausted⟩

end Invariant

/-! ### The three clients -/

/-- The authentication protocols that a user can enable. -/
inductive AuthProtocol
  | pap
  | mschapv2
  | eapMschapv2
  deriving DecidableEq

def chapAlgorithmMschapv2 : UInt8 := 0x81
def defaultMru : ℕ := 1500
def minMru : ℕ := 68

namespace OptionPack

def mruOption (p : OptionPack .lcp) : Option ℕ :=
  match p.slot optionTypeLcpMru with
  | some (.mru unitSize) => some unitSize
  | _ => none

def authOption (p : OptionPack .lcp) : Option (ℕ × List UInt8) :=
  match p.slot optionTypeLcpAuth with
  | some (.auth protocol holder) => some (protocol, holder)
  | _ => none

/-- `ipOption` and `dnsOption`. -/
def addressOption (p : OptionPack .ipcp) (type : UInt8) : Option (List UInt8) :=
  match p.slot type with
  | some (.address _ address) => some address
  | _ => none

def identifierOption (p : OptionPack .ipv6cp) : Option (List UInt8) :=
  match p.slot optionTypeIpv6cpIdentifier with
  | some (.identifier identifier) => some identifier
  | _ => none

/-- The known options of a request that its reject takes over, and all unknown ones; no reject
    without an option. -/
def rejectOf {k : Kind} (types : List UInt8) (request : OptionPack k) : Option (OptionPack k) :=
  let reject : OptionPack k :=
    { slot := fun type => if type ∈ types then request.slot type else none
      unknownOptions := request.unknownOptions
      order := request.order }
  if reject.allOptions = [] then none else some reject

end OptionPack

/-- The settings of the LCP client. -/
structure LcpConfig where
  pppMru : ℕ
  pppMtu : ℕ
  isEnabled : AuthProtocol → Bool

/-- The data of the client for the link. -/
structure LcpData where
  currentMRU : ℕ
  currentAuth : Option AuthProtocol
  isMruRejected : Bool
  deriving DecidableEq

namespace LcpConfig

variable (c : LcpConfig)

/-- The protocol that is acknowledged for an authentication option of the server; `none` for the
    `NotImplementedError` of a CHAP option without one algorithm. -/
def acknowledgedAuth : Option (ℕ × List UInt8) → Option (Option AuthProtocol)
  | none => some none
  | some (protocol, holder) =>
    if protocol = pppProtocolEap then
      some (if c.isEnabled .eapMschapv2 then some .eapMschapv2 else none)
    else if protocol = pppProtocolChap then
      if holder.length ≠ 1 then none
      else some (if holder.headD 0 = chapAlgorithmMschapv2 ∧ c.isEnabled .mschapv2 then
        some .mschapv2 else none)
    else if protocol = pppProtocolPap then
      some (if c.isEnabled .pap then some .pap else none)
    else some none

/-- The option that is proposed instead. -/
def proposedAuth : Option PppOption :=
  if c.isEnabled .eapMschapv2 then some (.auth pppProtocolEap [])
  else if c.isEnabled .mschapv2 then some (.auth pppProtocolChap [chapAlgorithmMschapv2])
  else if c.isEnabled .pap then some (.auth pppProtocolPap [])
  else none

/-- `tryCreateServerNak` of the link. -/
def tryCreateServerNak (d : LcpData) (request : OptionPack .lcp) :
    Option (LcpData × Option (OptionPack .lcp)) :=
  let serverMru := request.mruOption.getD defaultMru
  let empty : OptionPack .lcp := ⟨fun _ => none, [], request.order⟩
  let nak := if serverMru < c.pppMtu then empty.set (.mru c.pppMtu) else empty
  match c.acknowledgedAuth request.authOption with
  | none => none
  | some (some auth) =>
    some ({ d with currentAuth := some auth }, if nak.allOptions = [] then none else some nak)
  -- nothing to propose is a `NotImplementedError` too
  | some none => c.proposedAuth.map (fun option => (d, some (nak.set option)))

/-- `createClientRequest` of the link. -/
def createClientRequest (d : LcpData) : LcpData × OptionPack .lcp :=
  (d, if d.isMruRejected then .empty else OptionPack.empty.set (.mru d.currentMRU))

/-- `tryAcceptClientNak` of the link. -/
def tryAcceptClientNak (d : LcpData) (nak : OptionPack .lcp) : LcpData × List ControlMessage :=
  match nak.mruOption with
  | some unitSize => ({ d with currentMRU := max (min unitSize c.pppMru) minMru }, [])
  | none => (d, [])

/-- `tryAcceptClientReject` of the link. -/
def tryAcceptClientReject (d : LcpData) (reject : OptionPack .lcp) :
    LcpData × List ControlMessage :=
  (if reject.mruOption.isSome then { d with isMruRejected := true } else d,
    (if reject.mruOption.isSome && c.pppMru < defaultMru then
      [⟨.lcpMru, .errOptionRejected⟩] else []) ++
    if reject.authOption.isSome then [⟨.lcpAuth, .errOptionRejected⟩] else [])

end LcpConfig

/-- `LCPClient`. -/
def lcpClient (c : LcpConfig) : ConfigMethods .lcp LcpData where
  place := .lcp
  tryCreateServerReject := OptionPack.rejectOf []
  tryCreateServerNak := c.tryCreateServerNak
  createClientRequest := LcpConfig.createClientRequest
  tryAcceptClientReject := c.tryAcceptClientReject
  tryAcceptClientNak := c.tryAcceptClientNak

/-- The settings of the IPCP client. -/
structure IpcpConfig where
  isDNSRequested : Bool
  requestedAddress : Option (List UInt8)

/-- The data of the client for addresses. -/
structure IpcpData where
  currentIPv4 : List UInt8
  currentProposedDNS : List UInt8
  isDNSRejected : Bool
  deriving DecidableEq

namespace IpcpConfig

variable (c : IpcpConfig)

/-- `createClientRequest` for addresses. -/
def createClientRequest (d : IpcpData) : IpcpData × OptionPack .ipcp :=
  let d := { d with currentIPv4 := c.requestedAddress.getD d.currentIPv4 }
  let request : OptionPack .ipcp := OptionPack.empty.set (.address optionTypeIpcpIp d.currentIPv4)
  (d, if c.isDNSRequested && !d.isDNSRejected then
    request.set (.address optionTypeIpcpDns d.currentProposedDNS) else request)

/-- `tryAcceptClientNak` for addresses. -/
def tryAcceptClientNak (d : IpcpData) (nak : OptionPack .ipcp) : IpcpData × List ControlMessage :=
  let ip := nak.addressOption optionTypeIpcpIp
  let d' := { d with
    currentIPv4 := if c.requestedAddress.isSome then d.currentIPv4 else ip.getD d.currentIPv4
    currentProposedDNS := (nak.addressOption optionTypeIpcpDns).getD d.currentProposedDNS }
  (d', if ip.isSome && c.requestedAddress.isSome then [⟨.ipcp, .errAddressRejected⟩] else [])

/-- `tryAcceptClientReject` for addresses. -/
def tryAcceptClientReject (d : IpcpData) (reject : OptionPack .ipcp) :
    IpcpData × List ControlMessage :=
  (if (reject.addressOption optionTypeIpcpDns).isSome then { d with isDNSRejected := true } else d,
    if (reject.addressOption optionTypeIpcpIp).isSome then [⟨.ipcpIp, .errOptionRejected⟩] else [])

end IpcpConfig

/-- `IpcpClient`. A request for a DNS server is rejected, the client has none. -/
def ipcpClient (c : IpcpConfig) : ConfigMethods .ipcp IpcpData where
  place := .ipcp
  tryCreateServerReject := OptionPack.rejectOf [optionTypeIpcpDns]
  tryCreateServerNak d _ := some (d, none)
  createClientRequest := c.createClientRequest
  tryAcceptClientReject := IpcpConfig.tryAcceptClientReject
  tryAcceptClientNak := c.tryAcceptClientNak

/-- `Ipv6cpClient`; its data is `currentIPv6`. -/
def ipv6cpClient : ConfigMethods .ipv6cp (List UInt8) where
  place := .ipv6cp
  tryCreateServerReject := OptionPack.rejectOf []
  tryCreateServerNak identifier _ := some (identifier, none)
  createClientRequest identifier := (identifier, OptionPack.empty.set (.identifier identifier))
  tryAcceptClientReject identifier reject :=
    (identifier, if reject.identifierOption.isSome then [⟨.ipv6cpIdentifier, .errOptionRejected⟩]
      else [])
  tryAcceptClientNak identifier nak := (nak.identifierOption.getD identifier, [])

/-! ### The clients keep to the rules of the loop -/

/-- A pack in which an option was set has one. -/
theorem OptionPack.allOptions_set {k : Kind} (p : OptionPack k) {o : PppOption}
    (h : o.type ∈ k.slots) : (p.set o).allOptions ≠ [] := by
  have hset : (p.set o).slot o.type = some o := by
    show Function.update p.slot o.type (some o) o.type = some o
    rw [Function.update_self]
  have hmem : o ∈ (p.set o).knownOptions := List.mem_filterMap.mpr ⟨o.type, h, hset⟩
  exact List.ne_nil_of_mem (List.mem_append_left _ hmem)

/-- The two answers of the LCP client to a request that is not rejected. -/
theorem LcpConfig.tryCreateServerNak_cases (c : LcpConfig) {d d' : LcpData}
    {request : OptionPack .lcp} {nak : Option (OptionPack .lcp)}
    (h : c.tryCreateServerNak d request = some (d', nak)) :
    (∃ auth, c.acknowledgedAuth request.authOption = some (some auth) ∧
      d' = { d with currentAuth := some auth } ∧
        (nak = none → c.pppMtu ≤ request.mruOption.getD defaultMru)) ∨
      c.acknowledgedAuth request.authOption = some none ∧ d' = d ∧ nak ≠ none := by
  have hslot : optionTypeLcpMru ∈ Kind.lcp.slots := by decide
  unfold LcpConfig.tryCreateServerNak at h
  dsimp only at h
  cases hauth : c.acknowledgedAuth request.authOption with
  | none =>
    rw [hauth] at h
    exact absurd h nofun
  | some auth =>
    rw [hauth] at h
    cases auth with
    | some auth =>
      rw [Option.some.injEq, Prod.mk.injEq] at h
      refine .inl ⟨auth, rfl, h.1.symm, ?_⟩
      intro hnone
      by_contra hlow
      rw [hnone, if_pos (Nat.not_le.mp hlow), if_neg (OptionPack.allOptions_set _ hslot)] at h
      exact absurd h.2 nofun
    | none =>
      obtain ⟨option, -, hpair⟩ := Option.map_eq_some_iff.mp h
      rw [Prod.mk.injEq] at hpair
      refine .inr ⟨rfl, hpair.1.symm, ?_⟩
      rw [← hpair.2]
      exact nofun

theorem lcpClient_lawful (c : LcpConfig) : (lcpClient c).Lawful where
  reject_message := by
    intro data options message hmessage
    have hmem : message ∈ (c.tryAcceptClientReject data options).2 := hmessage
    unfold LcpConfig.tryAcceptClientReject at hmem
    dsimp only at hmem
    rcases List.mem_append.mp hmem with h | h
    · split_ifs at h
      · rw [List.mem_singleton.mp h]
      · exact absurd h List.not_mem_nil
    · split_ifs at h
      · rw [List.mem_singleton.mp h]
      · exact absurd h List.not_mem_nil
  nak_message := by
    intro data options message hmessage
    have hmem : message ∈ (c.tryAcceptClientNak data options).2 := hmessage
    unfold LcpConfig.tryAcceptClientNak at hmem
    cases hmru : options.mruOption with
    | none =>
      rw [hmru] at hmem
      exact absurd hmem List.not_mem_nil
    | some unitSize =>
      rw [hmru] at hmem
      exact absurd hmem List.not_mem_nil
  request_again := fun _ => rfl
  request_nak := by
    intro data options data' nak h
    have hsame : data'.currentMRU = data.currentMRU ∧ data'.isMruRejected = data.isMruRejected := by
      rcases c.tryCreateServerNak_cases h with ⟨auth, -, rfl, -⟩ | ⟨-, rfl, -⟩
      · exact ⟨rfl, rfl⟩
      · exact ⟨rfl, rfl⟩
    show (LcpConfig.createClientRequest data').2 = (LcpConfig.createClientRequest data).2
    unfold LcpConfig.createClientRequest
    rw [hsame.1, hsame.2]

theorem ipcpClient_lawful (c : IpcpConfig) : (ipcpClient c).Lawful where
  reject_message := by
    intro data options message hmessage
    have hmem : message ∈ (IpcpConfig.tryAcceptClientReject data options).2 := hmessage
    unfold IpcpConfig.tryAcceptClientReject at hmem
    dsimp only at hmem
    split_ifs at hmem
    · rw [List.mem_singleton.mp hmem]
    · exact absurd hmem List.not_mem_nil
  nak_message := by
    intro data options message hmessage
    have hmem : message ∈ (c.tryAcceptClientNak data options).2 := hmessage
    unfold IpcpConfig.tryAcceptClientNak at hmem
    dsimp only at hmem
    split_ifs at hmem
    · rw [List.mem_singleton.mp hmem]
    · exact absurd hmem List.not_mem_nil
  request_again := by
    intro data
    show (c.createClientRequest (c.createClientRequest data).1).2 = (c.createClientRequest data).2
    unfold IpcpConfig.createClientRequest
    cases c.requestedAddress <;> rfl
  request_nak := by
    intro data options data' nak h
    have hpair : (data, none) = (data', nak) := Option.some.inj h
    have hdata : data = data' := congrArg Prod.fst hpair
    rw [hdata]

theorem ipv6cpClient_lawful : ipv6cpClient.Lawful where
  reject_message := by
    intro data options message hmessage
    have hmem : message ∈ (if options.identifierOption.isSome then
      [⟨.ipv6cpIdentifier, .errOptionRejected⟩] else [] : List ControlMessage) := hmessage
    split_ifs at hmem
    · rw [List.mem_singleton.mp hmem]
    · exact absurd hmem List.not_mem_nil
  nak_message := fun _ _ _ hmessage => absurd hmessage List.not_mem_nil
  request_again := fun _ => rfl
  request_nak := by
    intro data options data' nak h
    have hpair : (data, none) = (data', nak) := Option.some.inj h
    have hdata : data = data' := congrArg Prod.fst hpair
    rw [hdata]

/-! ### What has been agreed on -/

section Agreement

variable {k : Kind} {σ : Type}

/-- `I` holds of a client's data, and `P` of its data and the request it acknowledged last. -/
structure ConfigMethods.Keeps (m : ConfigMethods k σ) (I : σ → Prop)
    (P : σ → OptionPack k → Prop) : Prop where
  request : ∀ data, I data → I (m.createClientRequest data).1
  request_agreed : ∀ data options, P data options → P (m.createClientRequest data).1 options
  nak : ∀ data nak, I data → I (m.tryAcceptClientNak data nak).1
  nak_agreed : ∀ data nak options, P data options → P (m.tryAcceptClientNak data nak).1 options
  reject : ∀ data reject, I data → I (m.tryAcceptClientReject data reject).1
  reject_agreed : ∀ data reject options, P data options →
    P (m.tryAcceptClientReject data reject).1 options
  server : ∀ data options data' nak, I data →
    m.tryCreateServerNak data options = some (data', nak) → I data'
  acknowledged : ∀ data options data', m.tryCreateServerReject options = none →
    m.tryCreateServerNak data options = some (data', none) → P data' options

/-- The data is in order, and so is what was acknowledged. -/
structure Agreed (I : σ → Prop) (P : σ → OptionPack k → Prop) (n : Negotiation k σ) : Prop where
  data : I n.data
  server : n.isServerReady = true →
    ∃ id options, lastReceived n.trace = some (id, options) ∧ P n.data options

/-- Messages to the controller do not count. -/
theorem lastReceived_reported (messages : List ControlMessage) (trace : List (Entry k)) :
    lastReceived ((messages.map Entry.reported).reverse ++ trace) = lastReceived trace := by
  induction messages generalizing trace with
  | nil => rfl
  | cons message messages ih =>
    rw [List.map_cons, List.reverse_cons, List.append_assoc]
    exact ih (.reported message :: trace)

namespace Agreed

variable {m : ConfigMethods k σ} {n n' : Negotiation k σ} {I : σ → Prop}
  {P : σ → OptionPack k → Prop}

/-- Another entry, and other data for which the same holds. -/
theorem congr (h : Agreed I P n) (hdata : I n'.data) (hserver : n'.isServerReady = n.isServerReady)
    (hagreed : ∀ options, P n.data options → P n'.data options)
    (htrace : lastReceived n'.trace = lastReceived n.trace) : Agreed I P n' where
  data := hdata
  server := by
    rw [hserver, htrace]
    intro hready
    obtain ⟨id, options, hlast, hP⟩ := h.server hready
    exact ⟨id, options, hlast, hagreed options hP⟩

theorem client (h : Agreed I P n) (isClientReady : Bool) :
    Agreed I P { n with isClientReady := isClientReady } := ⟨h.data, h.server⟩

theorem sendClientRequest (hm : m.Keeps I P) (h : Agreed I P n) :
    Agreed I P (n.sendClientRequest m) := by
  obtain ⟨-, -, -, -, hserver, -, hdata⟩ := sendClientRequest_spec m n
  have htrace : lastReceived (n.sendClientRequest m).trace = lastReceived n.trace := by
    unfold Negotiation.sendClientRequest Negotiation.consumeRequestCounter
    dsimp only
    split_ifs <;> rfl
  refine h.congr ?_ hserver ?_ htrace
  · rw [hdata]
    exact hm.request n.data h.data
  · rw [hdata]
    exact hm.request_agreed n.data

theorem checkOpen (h : Agreed I P n) : Agreed I P (n.checkOpen m) := by
  unfold Negotiation.checkOpen
  split_ifs
  · exact h.congr h.data rfl (fun _ hP => hP) rfl
  · exact h

theorem receiveRequest (hm : m.Keeps I P) (h : Agreed I P n) (id : UInt8)
    (options : OptionPack k) :
    Agreed I P
      ((n.log [.received lcpCodeConfigureRequest id options]).receiveRequest m id options) := by
  unfold Negotiation.receiveRequest
  dsimp only
  cases hreject : m.tryCreateServerReject options with
  | some reject => exact ⟨h.data, fun hready => absurd hready nofun⟩
  | none =>
    dsimp only
    have hdata : (n.log [.received lcpCodeConfigureRequest id options]).data = n.data := rfl
    rw [hdata]
    cases hcreate : m.tryCreateServerNak n.data options with
    | none => exact ⟨h.data, fun hready => absurd hready nofun⟩
    | some created =>
      obtain ⟨data, nak⟩ := created
      have hI := hm.server n.data options data nak h.data hcreate
      cases nak with
      | some nak => exact ⟨hI, fun hready => absurd hready nofun⟩
      | none =>
        have hlast : lastReceived (.received lcpCodeConfigureRequest id options :: n.trace) =
            some (id, options) := if_pos rfl
        refine checkOpen ⟨hI, fun _ => ⟨id, options, hlast, ?_⟩⟩
        exact hm.acknowledged n.data options data hreject hcreate

theorem receiveAnswer (hm : m.Keeps I P) (h : Agreed I P n) {code : UInt8} (id : UInt8)
    (options : OptionPack k) (hcode : code ≠ lcpCodeConfigureRequest) :
    Agreed I P ((n.log [.received code id options]).receiveAnswer m code id options) := by
  have hlogged : Agreed I P (n.log [.received code id options]) :=
    h.congr h.data rfl (fun _ hP => hP) (if_neg hcode)
  unfold Negotiation.receiveAnswer
  dsimp only
  split_ifs
  · exact (hlogged.client false).sendClientRequest hm
  · exact hlogged
  · exact checkOpen (hlogged.client true)
  · exact checkOpen (sendClientRequest hm (hlogged.congr (hm.nak _ _ hlogged.data) rfl
      (hm.nak_agreed _ _) (lastReceived_reported _ _)))
  · exact checkOpen (sendClientRequest hm (hlogged.congr (hm.reject _ _ hlogged.data) rfl
      (hm.reject_agreed _ _) (lastReceived_reported _ _)))
  · exact checkOpen hlogged

theorem step (hm : m.Keeps I P) (h : Agreed I P n) (e : ConfigEvent k) :
    Agreed I P (configStep m n e) := by
  cases e with
  | receive code id options =>
    show Agreed I P (if n.phase = .running then _ else n)
    split_ifs with hphase hcode
    · subst hcode
      exact h.receiveRequest hm id options
    · exact h.receiveAnswer hm id options hcode
    · exact h
  | timeout =>
    show Agreed I P (if n.phase = .running then _ else n)
    split_ifs
    · exact (h.client false).sendClientRequest hm
    · exact h
  | allocate => exact h.congr h.data rfl (fun _ hP => hP) rfl
  | cancel =>
    show Agreed I P (if n.phase = .running then _ else n)
    split_ifs
    · exact h.congr h.data rfl (fun _ hP => hP) rfl
    · exact h

end Agreed

/-- **What holds when a negotiation has proceeded**: our last request is the one for the data
    there is now, and the last request of the server is one that was accepted. -/
theorem negotiate_agreed {m : ConfigMethods k σ} (hlawful : m.Lawful) {I : σ → Prop}
    {P : σ → OptionPack k → Prop} (hm : m.Keeps I P) (data : σ)
    (hdata : I (m.createClientRequest data).1) (allocated : ℕ) (events : List (ConfigEvent k))
    (hopened : (negotiate m data allocated events).phase = .opened) :
    let n := negotiate m data allocated events
    I n.data ∧ OurRequestAcked n.trace ∧
      lastSent n.trace = some (n.requestID, (m.createClientRequest n.data).2) ∧
      TheirRequestAcked n.trace ∧
      ∃ id options, lastReceived n.trace = some (id, options) ∧ P n.data options := by
  have hok := negotiate_ok hlawful data allocated events
  have hlaunch : Agreed I P (launchJobNegotiation m data allocated) := by
    obtain ⟨-, -, -, -, hserver, -, hsent⟩ := sendClientRequest_spec m
      ⟨data, allocated, 0, pppRequestCount, false, false, .running, []⟩
    unfold launchJobNegotiation
    refine ⟨by rw [hsent]; exact hdata, fun hready => absurd (hserver.symm.trans hready) nofun⟩
  have hagreed : Agreed I P (negotiate m data allocated events) :=
    run_invariant (fun _ e h => h.step hm e) hlaunch events
  obtain ⟨hclient, hserver⟩ := hok.opened.mp hopened
  exact ⟨hagreed.data, hok.ours.mp hclient, hok.asked, hok.theirs.mp hserver,
    hagreed.server hserver⟩

end Agreement

/-! ### The three agreements -/

/-- The number of a protocol. -/
def AuthProtocol.protocol : AuthProtocol → ℕ
  | pap => pppProtocolPap
  | mschapv2 => pppProtocolChap
  | eapMschapv2 => pppProtocolEap

/-- An option is acknowledged for an enabled protocol only. -/
theorem LcpConfig.acknowledgedAuth_spec {c : LcpConfig} {option : Option (ℕ × List UInt8)}
    {auth : AuthProtocol} (h : c.acknowledgedAuth option = some (some auth)) :
    c.isEnabled auth = true ∧ ∃ holder, option = some (auth.protocol, holder) ∧
      (auth = .mschapv2 → holder = [chapAlgorithmMschapv2]) := by
  unfold acknowledgedAuth at h
  cases option with
  | none => exact absurd h nofun
  | some option =>
    obtain ⟨protocol, holder⟩ := option
    dsimp only at h
    by_cases heap : protocol = pppProtocolEap
    · rw [if_pos heap, Option.some.injEq] at h
      split_ifs at h with henabled
      rw [Option.some.injEq] at h
      subst h heap
      exact ⟨henabled, holder, rfl, nofun⟩
    · rw [if_neg heap] at h
      by_cases hchap : protocol = pppProtocolChap
      · rw [if_pos hchap] at h
        by_cases hone : holder.length = 1
        · rw [if_neg (not_not.mpr hone), Option.some.injEq] at h
          split_ifs at h with hmschap
          rw [Option.some.injEq] at h
          subst h hchap
          obtain ⟨b, rfl⟩ := List.length_eq_one_iff.mp hone
          refine ⟨hmschap.2, [b], rfl, fun _ => ?_⟩
          rw [show b = chapAlgorithmMschapv2 from hmschap.1]
        · rw [if_pos hone] at h
          exact absurd h nofun
      · rw [if_neg hchap] at h
        by_cases hpap : protocol = pppProtocolPap
        · rw [if_pos hpap, Option.some.injEq] at h
          split_ifs at h with henabled
          rw [Option.some.injEq] at h
          subst h hpap
          exact ⟨henabled, holder, rfl, nofun⟩
        · rw [if_neg hpap] at h
          exact absurd (Option.some.inj h) nofun

theorem OptionPack.rejectOf_eq_none {k : Kind} {types : List UInt8} {request : OptionPack k}
    (h : OptionPack.rejectOf types request = none) :
    request.unknownOptions = [] ∧ ∀ type ∈ types, type ∈ k.slots → request.slot type = none := by
  unfold OptionPack.rejectOf at h
  dsimp only at h
  split_ifs at h with hnone
  obtain ⟨hknown, hunknown⟩ := List.append_eq_nil_iff.mp hnone
  refine ⟨hunknown, ?_⟩
  intro type htype hslot
  have hskip : (if type ∈ types then request.slot type else none) = none :=
    List.filterMap_eq_nil_iff.mp hknown type hslot
  rw [← hskip, if_pos htype]

/-- The data of the LCP client when it is launched. -/
def LcpConfig.initial (c : LcpConfig) : LcpData := ⟨c.pppMru, none, false⟩

theorem lcpClient_keeps {c : LcpConfig} (hmru : minMru ≤ c.pppMru) :
    (lcpClient c).Keeps (fun d => minMru ≤ d.currentMRU ∧ d.currentMRU ≤ c.pppMru)
      (fun d request => request.unknownOptions = [] ∧ c.pppMtu ≤ request.mruOption.getD defaultMru ∧
        ∃ auth, d.currentAuth = some auth ∧
          c.acknowledgedAuth request.authOption = some (some auth)) where
  request := fun _ h => h
  request_agreed := fun _ _ h => h
  nak := by
    intro d nak h
    show minMru ≤ (c.tryAcceptClientNak d nak).1.currentMRU ∧
      (c.tryAcceptClientNak d nak).1.currentMRU ≤ c.pppMru
    unfold LcpConfig.tryAcceptClientNak
    cases nak.mruOption with
    | none => exact h
    | some unitSize => exact ⟨le_max_right _ _, max_le (min_le_right _ _) hmru⟩
  nak_agreed := by
    intro d nak request h
    have hauth : (c.tryAcceptClientNak d nak).1.currentAuth = d.currentAuth := by
      unfold LcpConfig.tryAcceptClientNak
      cases nak.mruOption <;> rfl
    obtain ⟨hunknown, hmtu, auth, hcurrent, hack⟩ := h
    exact ⟨hunknown, hmtu, auth, hauth.trans hcurrent, hack⟩
  reject := by
    intro d reject h
    have hsame : (c.tryAcceptClientReject d reject).1.currentMRU = d.currentMRU := by
      unfold LcpConfig.tryAcceptClientReject
      dsimp only
      split_ifs <;> rfl
    show minMru ≤ (c.tryAcceptClientReject d reject).1.currentMRU ∧
      (c.tryAcceptClientReject d reject).1.currentMRU ≤ c.pppMru
    rw [hsame]
    exact h
  reject_agreed := by
    intro d reject request h
    have hauth : (c.tryAcceptClientReject d reject).1.currentAuth = d.currentAuth := by
      unfold LcpConfig.tryAcceptClientReject
      dsimp only
      split_ifs <;> rfl
    obtain ⟨hunknown, hmtu, auth, hcurrent, hack⟩ := h
    exact ⟨hunknown, hmtu, auth, hauth.trans hcurrent, hack⟩
  -- a request of the server may change the protocol, but not the unit that we take
  server := by
    intro d request d' nak h hcreate
    rcases c.tryCreateServerNak_cases hcreate with ⟨auth, -, rfl, -⟩ | ⟨-, rfl, -⟩
    · exact h
    · exact h
  acknowledged := by
    intro d request d' hreject hcreate
    rcases c.tryCreateServerNak_cases hcreate with ⟨auth, hack, rfl, hmtu⟩ | ⟨-, -, hnak⟩
    · exact ⟨(OptionPack.rejectOf_eq_none hreject).1, hmtu rfl, auth, rfl, hack⟩
    · exact absurd rfl hnak

/-- **What LCP has agreed on** when it proceeds, in every run: the server's last request, which was
    acknowledged, has no unknown option, takes packets of our MTU and names the protocol that
    is then used, which the user enabled; our last request, which was acknowledged, names the
    unit that we take, within the bounds of the settings, or none if that was rejected. -/
theorem lcp_agreement (c : LcpConfig) (hmru : minMru ≤ c.pppMru) (allocated : ℕ)
    (events : List (ConfigEvent .lcp))
    (hopened : (negotiate (lcpClient c) c.initial allocated events).phase = .opened) :
    let n := negotiate (lcpClient c) c.initial allocated events
    (TheirRequestAcked n.trace ∧ ∃ id request auth holder,
      lastReceived n.trace = some (id, request) ∧ request.unknownOptions = [] ∧
        c.pppMtu ≤ request.mruOption.getD defaultMru ∧
        request.authOption = some (auth.protocol, holder) ∧
        (auth = .mschapv2 → holder = [chapAlgorithmMschapv2]) ∧
        n.data.currentAuth = some auth ∧ c.isEnabled auth = true) ∧
      (OurRequestAcked n.trace ∧ ∃ request, lastSent n.trace = some (n.requestID, request) ∧
        request.mruOption = (if n.data.isMruRejected then none else some n.data.currentMRU) ∧
        minMru ≤ n.data.currentMRU ∧ n.data.currentMRU ≤ c.pppMru) := by
  obtain ⟨hbounds, hours, hsent, htheirs, id, request, hlast, hunknown, hmtu, auth, hcurrent,
    hack⟩ := negotiate_agreed (lcpClient_lawful c) (lcpClient_keeps hmru)
      c.initial ⟨hmru, Nat.le_refl _⟩ allocated events hopened
  obtain ⟨henabled, holder, hoption, hchap⟩ := LcpConfig.acknowledgedAuth_spec hack
  refine ⟨⟨htheirs, id, request, auth, holder, hlast, hunknown, hmtu, hoption, hchap, hcurrent,
    henabled⟩, hours, _, hsent, ?_, hbounds⟩
  generalize (negotiate (lcpClient c) c.initial allocated events).data = d
  show OptionPack.mruOption (if d.isMruRejected then _ else _) = _
  split_ifs <;> rfl

/-- A server that asks for PAP, and acknowledges our request. -/
def sampleLcpEvents : List (ConfigEvent .lcp) :=
  [.receive lcpCodeConfigureRequest 7 (.ofOptions .lcp [.auth pppProtocolPap []]), .timeout,
    .receive lcpCodeConfigureAck 1 .empty]

/-- A client that takes PAP. -/
def sampleLcp : LcpConfig := ⟨1400, 1400, fun auth => auth = .pap⟩

theorem negotiation_proceeds_iff_sample :
    let n := negotiate (lcpClient sampleLcp) sampleLcp.initial 0 sampleLcpEvents
    OurRequestAcked n.trace ∧ TheirRequestAcked n.trace :=
  (negotiation_proceeds_iff (lcpClient sampleLcp) (lcpClient_lawful sampleLcp) sampleLcp.initial 0
    sampleLcpEvents).1.mp (by decide)

theorem lcp_agreement_sample :
    (negotiate (lcpClient sampleLcp) sampleLcp.initial 0 sampleLcpEvents).data.currentAuth =
      some .pap ∧
    ∃ request, lastSent (negotiate (lcpClient sampleLcp) sampleLcp.initial 0 sampleLcpEvents).trace
      = some (1, request) ∧ request.mruOption = some 1400 := by
  obtain ⟨⟨-, -, -, auth, -, -, -, -, -, -, hauth, henabled⟩, -, request, hsent, hmru, -⟩ :=
    lcp_agreement sampleLcp (by decide) 0 sampleLcpEvents (by decide)
  have hpap : auth = .pap := of_decide_eq_true henabled
  refine ⟨hauth.trans (by rw [hpap]), request, hsent, hmru.trans ?_⟩
  decide

theorem ipcpClient_keeps (c : IpcpConfig) :
    (ipcpClient c).Keeps (fun d => ∀ a, c.requestedAddress = some a → d.currentIPv4 = a)
      (fun _ request => request.unknownOptions = [] ∧
        request.addressOption optionTypeIpcpDns = none) where
  request := by
    intro d h a ha
    show c.requestedAddress.getD d.currentIPv4 = a
    rw [ha]
    rfl
  request_agreed := fun _ _ h => h
  nak := by
    intro d nak h a ha
    show (if c.requestedAddress.isSome then d.currentIPv4 else _) = a
    rw [if_pos (by rw [ha]; rfl)]
    exact h a ha
  nak_agreed := fun _ _ _ h => h
  reject := by
    intro d reject h a ha
    have hsame : (IpcpConfig.tryAcceptClientReject d reject).1.currentIPv4 = d.currentIPv4 := by
      unfold IpcpConfig.tryAcceptClientReject
      dsimp only
      split_ifs <;> rfl
    exact hsame.trans (h a ha)
  reject_agreed := fun _ _ _ h => h
  server := by
    intro d request d' nak h hcreate
    have hpair : (d, none) = (d', nak) := Option.some.inj hcreate
    have hdata : d = d' := congrArg Prod.fst hpair
    rw [← hdata]
    exact h
  acknowledged := by
    intro d request d' hreject _
    obtain ⟨hunknown, hslots⟩ := OptionPack.rejectOf_eq_none hreject
    refine ⟨hunknown, ?_⟩
    unfold OptionPack.addressOption
    rw [hslots optionTypeIpcpDns List.mem_cons_self (by decide)]

/-- **What IPCP has agreed on** when it proceeds, in every run: the address that the device gets
    is the one in our last request, which was acknowledged, and it is the static one if the
    user set one; a DNS server is the proposed one, in that request too, unless it was not
    asked for or was rejected. The server was not told that we have a DNS server. -/
theorem address_agreement (c : IpcpConfig) (data : IpcpData) (allocated : ℕ)
    (events : List (ConfigEvent .ipcp))
    (hopened : (negotiate (ipcpClient c) data allocated events).phase = .opened) :
    let n := negotiate (ipcpClient c) data allocated events
    (OurRequestAcked n.trace ∧ ∃ request, lastSent n.trace = some (n.requestID, request) ∧
      request.addressOption optionTypeIpcpIp = some n.data.currentIPv4 ∧
      request.addressOption optionTypeIpcpDns =
        (if c.isDNSRequested && !n.data.isDNSRejected then some n.data.currentProposedDNS
          else none)) ∧
      (∀ a, c.requestedAddress = some a → n.data.currentIPv4 = a) ∧
      TheirRequestAcked n.trace ∧ ∃ id request, lastReceived n.trace = some (id, request) ∧
        request.unknownOptions = [] ∧ request.addressOption optionTypeIpcpDns = none := by
  obtain ⟨haddress, hours, hsent, htheirs, hserver⟩ := negotiate_agreed (ipcpClient_lawful c)
    (ipcpClient_keeps c) data (fun a ha => by
      show c.requestedAddress.getD data.currentIPv4 = a
      rw [ha]
      rfl) allocated events hopened
  refine ⟨⟨hours, _, hsent, ?_, ?_⟩, haddress, htheirs, hserver⟩
  · generalize (negotiate (ipcpClient c) data allocated events).data = d at haddress
    have hsame : c.requestedAddress.getD d.currentIPv4 = d.currentIPv4 := by
      cases ha : c.requestedAddress with
      | none => rfl
      | some a => exact (haddress a ha).symm
    show OptionPack.addressOption (c.createClientRequest d).2 optionTypeIpcpIp = _
    unfold IpcpConfig.createClientRequest
    dsimp only
    rw [hsame]
    split_ifs <;> rfl
  · generalize (negotiate (ipcpClient c) data allocated events).data = d
    show OptionPack.addressOption (c.createClientRequest d).2 optionTypeIpcpDns = _
    unfold IpcpConfig.createClientRequest
    dsimp only
    split_ifs <;> rfl

theorem ipv6cpClient_keeps :
    ipv6cpClient.Keeps (fun _ => True) (fun _ request => request.unknownOptions = []) where
  request := fun _ _ => trivial
  request_agreed := fun _ _ h => h
  nak := fun _ _ _ => trivial
  nak_agreed := fun _ _ _ h => h
  reject := fun _ _ _ => trivial
  reject_agreed := fun _ _ _ h => h
  server := fun _ _ _ _ _ _ => trivial
  acknowledged := fun _ _ _ hreject _ => (OptionPack.rejectOf_eq_none hreject).1

/-- The same of the interface identifier. -/
theorem identifier_agreement (identifier : List UInt8) (allocated : ℕ)
    (events : List (ConfigEvent .ipv6cp))
    (hopened : (negotiate ipv6cpClient identifier allocated events).phase = .opened) :
    let n := negotiate ipv6cpClient identifier allocated events
    (OurRequestAcked n.trace ∧ ∃ request, lastSent n.trace = some (n.requestID, request) ∧
      request.identifierOption = some n.data) ∧
      TheirRequestAcked n.trace ∧ ∃ id request, lastReceived n.trace = some (id, request) ∧
        request.unknownOptions = [] := by
  obtain ⟨-, hours, hsent, htheirs, hserver⟩ := negotiate_agreed ipv6cpClient_lawful
    ipv6cpClient_keeps identifier trivial allocated events hopened
  exact ⟨⟨hours, _, hsent, rfl⟩, htheirs, hserver⟩

/-- A server that proposes a DNS server to a client with a static address. -/
def sampleIpcpEvents : List (ConfigEvent .ipcp) :=
  let proposed : PppOption := .address optionTypeIpcpDns [10, 0, 0, 1]
  [.receive lcpCodeConfigureNak 0 (.ofOptions .ipcp [proposed]),
    .receive lcpCodeConfigureRequest 1 .empty,
    .receive lcpCodeConfigureAck 1
      (.ofOptions .ipcp [.address optionTypeIpcpIp [10, 0, 0, 9], proposed])]

theorem address_agreement_sample :
    let n := negotiate (ipcpClient ⟨true, some [10, 0, 0, 9]⟩)
      ⟨[0, 0, 0, 0], [0, 0, 0, 0], false⟩ 0 sampleIpcpEvents
    n.data.currentIPv4 = [10, 0, 0, 9] ∧
      ∃ request, lastSent n.trace = some (1, request) ∧
        request.addressOption optionTypeIpcpIp = some [10, 0, 0, 9] ∧
          request.addressOption optionTypeIpcpDns = some [10, 0, 0, 1] := by
  obtain ⟨⟨-, request, hsent, hip, hdns⟩, haddress, -⟩ :=
    address_agreement ⟨true, some [10, 0, 0, 9]⟩ ⟨[0, 0, 0, 0], [0, 0, 0, 0], false⟩ 0
      sampleIpcpEvents (by decide)
  have hstatic := haddress _ rfl
  exact ⟨hstatic, request, hsent, hip.trans (congrArg some hstatic), hdns.trans (by decide)⟩

end SoftEther.Sstp
