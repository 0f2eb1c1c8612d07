import SoftEther.Lib.Transition
import SoftEther.Transport.Bytes
import SoftEther.Transport.Wire

namespace SoftEther.Transport

open Lib

/-!
# Learning the peer's port

Some NATs overwrite the source port of the server.  `rt_handle_udp_packet` learns the port
from every signed datagram, and is meant to learn it from a datagram too short for a
signature while the session waits for the first segment.  That branch stands after a check
that has already rejected datagrams of this length.

* `rtInterrupt_peer` — nothing but a datagram changes the peer's endpoint;
* `PortLaw` — when an event may change the port, and when it has to;
* `portLaw_along_iff` — the law holds along a run exactly when no port-punch signal from
  another port is received.
-/

/-! ### The peer's endpoint -/

variable {t : RtTransport} {k : RtKeys} {sha1 : Sha1}

@[simp] theorem rtDrain_peer (t : RtTransport) : (rtDrain t).peer = t.peer :=
  congrArg Prod.snd (rtDrain_rest t)

/-- The segmenting loop sends to the endpoint that is known. -/
@[simp] theorem rtSegmentLoop_peer (fuel : ℕ) (t : RtTransport) :
    (rtSegmentLoop fuel t).peer = t.peer := by
  induction fuel generalizing t with
  | zero => rfl
  | succ fuel ih =>
    unfold rtSegmentLoop
    split
    · rfl
    · split
      · rfl
      · exact (ih (rtCutSegment t)).trans (rtQueueSegment_peer t .stream _)

@[simp] theorem rtPump_peer (io : RtIo) (t : RtTransport) : (rtPump io t).peer = t.peer := by
  rw [rtPump, rtSegmentSendFifo, rtSegmentLoop_peer]
  exact (congrArg Prod.snd (rtPumpPairToSend_rest io.tick io.recvs _)).trans
    (congrArg Prod.snd (rtPumpRecvToPair_kept io.tick io.sends t))

@[simp] theorem rtKeepalive_peer (io : RtIo) (t : RtTransport) :
    (rtKeepalive io t).peer = t.peer := by
  unfold rtKeepalive
  split
  · dsimp only
    split
    · exact rtQueueSegment_peer t .keepAlive _
    · rfl
  · rfl

/-- **The periodic processing leaves the peer's endpoint alone.** -/
theorem rtInterrupt_peer (io : RtIo) (t : RtTransport) : (rtInterrupt io t).peer = t.peer := by
  by_cases hrun : t.se.status = .established ∧
      ¬ io.tick ≥ t.se.latestRecvMyTick + rudpTTimeoutMs
  · have hkept := congrArg Prod.snd (rtInterrupt_established_kept io hrun.1 hrun.2)
    have hpump : (rtKeepalive io (rtPump io (rtDrain t))).peer = t.peer := by simp
    exact hkept.trans hpump
  · rw [not_and_or, not_not] at hrun
    exact congrArg Prod.snd (rtInterrupt_idle_kept io hrun)

/-! ### The law of the port -/

/-- One event of the worker: a datagram with its bytes, the periodic processing, or the end
    of the worker. -/
inductive RtEvent
  | received (tick srcIp srcPort : ℕ) (buf : List UInt8)
  | interrupt (io : RtIo)
  | halt (tick : ℕ)

/-- The action of an event. -/
def RtEvent.action (sha1 : Sha1) (k : RtKeys) : RtEvent → RtAction
  | .received tick srcIp srcPort buf => .datagram tick srcIp srcPort (rtReceive sha1 k buf)
  | .interrupt io => .interrupt io
  | .halt tick => .halt tick

/-- The worker thread on the bytes it receives. -/
def rtWork (sha1 : Sha1) (k : RtKeys) (t : RtTransport) (e : RtEvent) : RtTransport :=
  rtStep t (e.action sha1 k)

/-- A datagram whose signature is valid. -/
def RtEvent.Signed (sha1 : Sha1) (k : RtKeys) : RtEvent → Prop
  | .received _ _ _ buf => rtSignOk sha1 k (buf.take rudpTMaxPacketSize) = true
  | .interrupt _ => False
  | .halt _ => False

/-- A port-punch signal: a datagram too short for a signature that comes from the peer's
    address, while the session waits for the first segment. -/
def RtEvent.PunchSignal (t : RtTransport) : RtEvent → Prop
  | .received _ srcIp _ buf => buf.length < 20 ∧ srcIp = t.se.yourIp ∧ t.se.status = .connectSent
  | .interrupt _ => False
  | .halt _ => False

/-- A port-punch signal from a port that is not the one the session sends to. -/
def RtEvent.NewPort (t : RtTransport) : RtEvent → Prop
  | .received _ _ srcPort _ => srcPort ≠ t.se.yourPort
  | .interrupt _ => False
  | .halt _ => False

/-- The port an event comes from. -/
def RtEvent.srcPort : RtEvent → Option ℕ
  | .received _ _ srcPort _ => some srcPort
  | .interrupt _ => none
  | .halt _ => none

/-- **The law of the port.** It changes only on a signed datagram or on a port-punch
    signal, and a port-punch signal from another port updates it. -/
structure PortLaw (sha1 : Sha1) (k : RtKeys) (t : RtTransport) (e : RtEvent) : Prop where
  only : (rtWork sha1 k t e).se.yourPort ≠ t.se.yourPort → e.Signed sha1 k ∨ e.PunchSignal t
  punch : e.PunchSignal t → e.NewPort t → e.srcPort = some (rtWork sha1 k t e).se.yourPort

/-- A datagram without a valid signature does not change the session. -/
theorem rtHandleUdpPacket_unsigned {buf : List UInt8}
    (h : rtSignOk sha1 k (buf.take rudpTMaxPacketSize) ≠ true) (tick srcIp srcPort : ℕ)
    (t : RtTransport) : rtHandleUdpPacket tick srcIp srcPort t (rtReceive sha1 k buf) = t := by
  have hnone : (rtReceive sha1 k buf).packet = none := by
    rw [ne_eq, Bool.not_eq_true] at h
    simp [rtReceive, h]
  have h20 : rudpTSha1Size = 20 := rfl
  unfold rtHandleUdpPacket
  rw [hnone, h20]
  by_cases hshort : (rtReceive sha1 k buf).size < 20
  · simp [hshort]
  · simp [hshort]

/-- A datagram of less than 20 bytes does not change the session. -/
theorem rtHandleUdpPacket_short {d : RtDatagram} (h : d.size < 20) (tick srcIp srcPort : ℕ)
    (t : RtTransport) : rtHandleUdpPacket tick srcIp srcPort t d = t := by
  have h20 : d.size < rudpTSha1Size := h
  unfold rtHandleUdpPacket
  rw [if_pos h20, ite_self]

/-- **What the code does**: the port changes on signed datagrams only. -/
theorem rtWork_yourPort {e : RtEvent} (h : ¬ e.Signed sha1 k) :
    (rtWork sha1 k t e).se.yourPort = t.se.yourPort := by
  cases e with
  | received tick srcIp srcPort buf =>
    show (rtHandleUdpPacket tick srcIp srcPort t _).se.yourPort = _
    rw [rtHandleUdpPacket_unsigned h]
  | interrupt io => exact congrArg Prod.snd (rtInterrupt_peer io t)
  | halt tick => exact congrArg (fun k => k.2.2) (rtSetDisconnected_kept tick t false)

/-- **When one event meets the law.** A port-punch signal from another port is exactly what
    breaks it. -/
theorem portLaw_iff {e : RtEvent} : PortLaw sha1 k t e ↔ ¬ (e.PunchSignal t ∧ e.NewPort t) := by
  constructor
  · rintro h ⟨hpunch, hnew⟩
    cases e with
    | received tick srcIp srcPort buf =>
      have hsame : rtWork sha1 k t (.received tick srcIp srcPort buf) = t :=
        rtHandleUdpPacket_short (d := rtReceive sha1 k buf) hpunch.1 tick srcIp srcPort t
      have hport := h.punch hpunch hnew
      rw [hsame] at hport
      exact hnew (Option.some.inj hport)
    | interrupt io => exact hpunch
    | halt tick => exact hpunch
  · intro h
    refine ⟨?_, fun hpunch hnew => absurd ⟨hpunch, hnew⟩ h⟩
    intro hchange
    by_contra hcause
    exact hchange (rtWork_yourPort (fun hs => hcause (Or.inl hs)))

/-- **The port along a run.** The law holds at every event of a session exactly when the
    session never receives a port-punch signal from another port. -/
theorem portLaw_along_iff (sha1 : Sha1) (k : RtKeys) (c : RtConnect) (es : List RtEvent) :
    Along (rtWork sha1 k) (PortLaw sha1 k) (rtInit c) es ↔
      Along (rtWork sha1 k) (fun t e => ¬ (e.PunchSignal t ∧ e.NewPort t)) (rtInit c) es :=
  along_congr (fun _ _ => portLaw_iff) _ es

/-- Four bytes from the server's address and port 9, before the first segment: the port the
    session sends to stays 2. -/
theorem portLaw_short_datagram :
    ¬ Along (rtWork (fun _ => zeroSha1) zeroKeys) (PortLaw (fun _ => zeroSha1) zeroKeys)
      (rtInit sampleConnect) [.received 1 1 9 [0, 0, 0, 0]] := by
  rintro ⟨hlaw, -⟩
  have hport := hlaw.punch ⟨by decide, rfl, rfl⟩ (show 9 ≠ 2 by decide)
  exact absurd hport (by decide)

end SoftEther.Transport
