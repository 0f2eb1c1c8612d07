import SoftEther.Lib.SlidingWindow
import SoftEther.Transport.Session

namespace SoftEther.Transport

open Lib Lib.SlidingWindow
open Relation

/-!
# The transport is a sliding-window endpoint

`RtTransport.endpoint` forgets ticks, ports, FIFOs and the connection status and keeps
what a selective-repeat endpoint has.  Every function of the session is matched by
steps of that endpoint; `rtHandleUdpPacket_steps` and `rtInterrupt_steps` collect them.
-/

/-! ### The abstraction -/

/-- Number and data of a segment. -/
def RtSegment.entry (s : RtSegment) : ℕ × SegmentData := (s.seq, s.data)

@[simp] theorem map_entry_fst (l : List RtSegment) :
    (l.map RtSegment.entry).map Prod.fst = l.map RtSegment.seq := by
  rw [List.map_map]
  rfl

variable {p : RtPacket} {t : RtTransport}

theorem RtPacket.length_le (h : 1 ≤ p.payload.length ∧ p.payload.length ≤ rudpTMaxSegmentSize) :
    p.payload.length ≤ rudpTMaxSegmentSize := h.2

/-- A packet as the receiver sees it: an empty or over-long payload does not count. -/
def RtPacket.abs (p : RtPacket) : Packet SegmentData where
  seq := p.seq
  payload :=
    if h : 1 ≤ p.payload.length ∧ p.payload.length ≤ rudpTMaxSegmentSize then
      some ⟨p.payload, RtPacket.length_le h⟩
    else none
  acks := p.acks
  maxAck := p.maxAck

/-- The payload that counts is the payload that was sent. -/
theorem RtPacket.payload_of_abs {x : SegmentData} (h : p.abs.payload = some x) :
    p.payload = x.1 := by
  simp only [RtPacket.abs] at h
  split at h
  · exact congrArg Subtype.val (Option.some.inj h)
  · exact absurd h (by simp)

/-- The packet of an output. -/
def RtOutput.packet : RtOutput → Option RtPacket
  | .segment p => some p
  | .request => none
  | .icmpEcho => none

/-- The packets among the outputs. -/
def packets (sent : List RtOutput) : List RtPacket := sent.filterMap RtOutput.packet

/-- The sliding-window endpoint of a transport. -/
def RtTransport.endpoint (t : RtTransport) : Endpoint SegmentData where
  queued := t.obs.queued.map Prod.snd
  next := t.se.nextSendSeq
  outstanding := t.se.sendSegments.map RtSegment.entry
  done := t.se.lastRecvCompleteSeq
  buffered := t.se.recvSegments.map RtSegment.entry
  acks := t.se.replyAcks
  delivered := t.obs.drained
  sent := (packets t.obs.sent).map RtPacket.abs

/-- Steps of the endpoint, with the window of the transport. -/
abbrev Steps (P : Packet SegmentData → Prop) (e e' : Endpoint SegmentData) : Prop :=
  ReflTransGen (Step rudpTMaxNumAck P) e e'

variable {P : Packet SegmentData → Prop}

/-- A session starts as a fresh endpoint. -/
theorem rtStart_fresh (c : RtConnect) (status : RtStatus) :
    (rtStart c status).endpoint.Fresh :=
  ⟨rfl, rfl, rfl, rfl, rfl, rfl, rfl, rfl⟩

/-! ### Sending -/

@[simp] theorem packets_append (sent : List RtOutput) (out : RtOutput) :
    packets (sent ++ [out]) = packets sent ++ out.packet.toList := by
  cases out <;> simp [packets, RtOutput.packet]

/-- A datagram that carries no segment changes nothing. -/
theorem rtSendUdp_endpoint (tick : ℕ) (t : RtTransport) (out : RtOutput)
    (h : out.packet = none) : (rtSendUdp tick t out).endpoint = t.endpoint := by
  simp [RtTransport.endpoint, rtSendUdp, h]

/-- Sending a segment, or a packet without data, is `emit`. -/
theorem rtSendSegmentNow_steps (tick : ℕ) (t : RtTransport) (seq : ℕ) (data : List UInt8)
    (h : data = [] ∨ ∃ s ∈ t.se.sendSegments, s.seq = seq ∧ s.data.1 = data) :
    Steps P t.endpoint (rtSendSegmentNow tick t seq data).endpoint := by
  have hstep : (rtSendSegmentNow tick t seq data).endpoint =
      { t.endpoint with
        acks := []
        sent := t.endpoint.sent ++ [(rtPacketNow tick t seq data).abs] } := by
    simp [RtTransport.endpoint, rtSendSegmentNow, rtSendUdp, RtOutput.packet]
  rw [hstep]
  refine ReflTransGen.single (.emit _ _ ?_ rfl ?_)
  · intro s hs
    exact List.mem_of_mem_take hs
  · intro x hx
    rcases h with rfl | ⟨s, hs, rfl, rfl⟩
    · simp [RtPacket.abs, rtPacketNow] at hx
    · -- the payload of the packet is the data of the segment
      have hx' : s.data = x := Subtype.ext (RtPacket.payload_of_abs hx)
      rw [← hx']
      exact List.mem_map_of_mem hs

/-- Queueing a segment while the window is open is `push`; a full queue changes nothing. -/
theorem rtQueueSegment_steps (t : RtTransport) (kind : SegmentKind) (data : SegmentData)
    (hopen : ∀ s ∈ t.se.sendSegments.head?, t.se.nextSendSeq < s.seq + rudpTMaxNumAck) :
    Steps P t.endpoint (rtQueueSegment t kind data).endpoint := by
  unfold rtQueueSegment
  split
  · exact ReflTransGen.refl
  · have hstep := Step.push (W := rudpTMaxNumAck) (P := P) t.endpoint data (by
      intro p hp
      simp only [RtTransport.endpoint, List.head?_map, Option.mem_map] at hp
      obtain ⟨s, hs, rfl⟩ := hp
      exact hopen s hs)
    refine ReflTransGen.single ?_
    simpa [RtTransport.endpoint, RtSegment.entry] using hstep

/-- With nothing outstanding the window is open. -/
theorem open_of_empty (h : t.se.sendSegments.length = 0) :
    ∀ s ∈ t.se.sendSegments.head?, t.se.nextSendSeq < s.seq + rudpTMaxNumAck := by
  intro s hs
  rw [List.length_eq_zero_iff.mp h] at hs
  exact absurd hs (by simp)

/-! ### The end of a session -/

@[simp] theorem rtSignalResult_endpoint (t : RtTransport) (ok : Bool) :
    (rtSignalResult t ok).endpoint = t.endpoint := by
  unfold rtSignalResult
  split <;> rfl

theorem rtSendDisconnects_steps (tick : ℕ) (t : RtTransport) (n : ℕ) :
    Steps P t.endpoint (rtSendDisconnects tick t n).endpoint := by
  induction n generalizing t with
  | zero => exact ReflTransGen.refl
  | succ n ih => exact (rtSendSegmentNow_steps tick t _ [] (Or.inl rfl)).trans (ih _)

theorem rtSetDisconnected_steps (tick : ℕ) (t : RtTransport) (byYou : Bool) :
    Steps P t.endpoint (rtSetDisconnected tick t byYou).endpoint := by
  unfold rtSetDisconnected
  split
  · exact ReflTransGen.refl
  · simp only [rtSignalResult_endpoint]
    split
    · exact rtSendDisconnects_steps tick t 5
    · exact ReflTransGen.refl

/-! ### Incoming packets -/

theorem rtProcessAck_steps (t : RtTransport) {p : Packet SegmentData} {s : ℕ} (hp : P p)
    (hs : s ∈ p.acks) : Steps P t.endpoint (rtProcessAck t s).endpoint := by
  have hstep := Step.ackOne (W := rudpTMaxNumAck) t.endpoint p s hp hs
  refine ReflTransGen.single ?_
  have herase : (t.se.sendSegments.map RtSegment.entry).eraseP (fun q => q.1 == s) =
      (t.se.sendSegments.eraseP (fun r => r.seq == s)).map RtSegment.entry := by
    rw [List.eraseP_map]
    rfl
  simpa [RtTransport.endpoint, rtProcessAck, herase] using hstep

theorem rtProcessAck2_steps (t : RtTransport) {p : Packet SegmentData} (hp : P p) :
    Steps P t.endpoint (rtProcessAck2 t p.maxAck).endpoint := by
  have hstep := Step.ackUpTo (W := rudpTMaxNumAck) t.endpoint p hp
  refine ReflTransGen.single ?_
  have hfilter : (t.se.sendSegments.map RtSegment.entry).filter (fun q => p.maxAck < q.1) =
      (t.se.sendSegments.filter (fun r => p.maxAck < r.seq)).map RtSegment.entry := by
    rw [List.filter_map]
    rfl
  simpa [RtTransport.endpoint, rtProcessAck2, hfilter] using hstep

/-- All acknowledgements of a packet. -/
theorem rtProcessAcks_steps (t : RtTransport) (hp : P p.abs) :
    Steps P t.endpoint (rtProcessAcks t p).endpoint := by
  have hsingle : ∀ (acks : List ℕ) (u : RtTransport), (∀ s ∈ acks, s ∈ p.acks) →
      Steps P u.endpoint (acks.foldl rtProcessAck u).endpoint := by
    intro acks
    induction acks with
    | nil => exact fun u _ => ReflTransGen.refl
    | cons s acks ih =>
      intro u hsub
      have hs : s ∈ p.abs.acks := hsub s List.mem_cons_self
      exact (rtProcessAck_steps u hp hs).trans
        (ih _ (fun r hr => hsub r (List.mem_cons_of_mem s hr)))
  unfold rtProcessAcks
  refine ReflTransGen.trans ?_ (hsingle p.acks _ (fun s hs => hs))
  split
  · exact rtProcessAck2_steps t hp
  · exact ReflTransGen.refl

/-- A number is noted for acknowledgement only when the endpoint has it. -/
theorem rtAddAck_steps (t : RtTransport) {s : ℕ} (hs : t.endpoint.Held s) :
    Steps P t.endpoint (rtAddAck t s).endpoint := by
  unfold rtAddAck
  split
  · exact ReflTransGen.refl
  · split
    · exact ReflTransGen.single (.note t.endpoint s hs)
    · exact ReflTransGen.refl

theorem rtProcessRecvPayload_steps (t : RtTransport) {x : SegmentData} (hp : P p.abs)
    (hx : p.abs.payload = some x) :
    Steps P t.endpoint (rtProcessRecvPayload t p.seq x).endpoint := by
  unfold rtProcessRecvPayload
  split
  · exact ReflTransGen.refl
  · rename_i hwin
    split
    · rename_i hold
      exact rtAddAck_steps t (Or.inl hold)
    · rename_i hnew
      split
      · rename_i hdup
        refine rtAddAck_steps t (Or.inr ?_)
        show p.seq ∈ (t.se.recvSegments.map RtSegment.entry).map Prod.fst
        rw [map_entry_fst]
        exact hdup
      · rename_i hfree
        split
        · exact ReflTransGen.refl
        · -- a new number inside the window: stored, then noted
          set u : RtTransport := { t with se := { t.se with
            recvSegments := t.se.recvSegments ++
              [{ seq := p.seq, data := x, nextSendTick := 0, numSent := 0 }] } } with hu
          have haccept := Step.accept (W := rudpTMaxNumAck) t.endpoint p.abs x hp hx
            (Nat.lt_of_not_le hnew) (Nat.le_of_not_lt hwin) (by
              show p.seq ∉ (t.se.recvSegments.map RtSegment.entry).map Prod.fst
              rw [map_entry_fst]
              exact hfree)
          have hu' : u.endpoint =
              { t.endpoint with buffered := t.endpoint.buffered ++ [(p.abs.seq, x)] } := by
            simp [hu, RtTransport.endpoint, RtSegment.entry, RtPacket.abs]
          refine (ReflTransGen.single haccept).trans ?_
          rw [← hu']
          refine rtAddAck_steps u (Or.inr ?_)
          rw [hu']
          simp [RtPacket.abs]

theorem rtProcessPayload_steps (t : RtTransport) (hp : P p.abs) :
    Steps P t.endpoint (rtProcessPayload t p).endpoint := by
  unfold rtProcessPayload
  split
  · rename_i h
    exact rtProcessRecvPayload_steps t hp (by simp only [RtPacket.abs]; rw [dif_pos h])
  · exact ReflTransGen.refl

@[simp] theorem rtUpdateTicks_endpoint (tick : ℕ) (t : RtTransport) (p : RtPacket) :
    (rtUpdateTicks tick t p).endpoint = t.endpoint := rfl

@[simp] theorem rtEstablish_endpoint (t : RtTransport) :
    (rtEstablish t).endpoint = t.endpoint := by
  unfold rtEstablish
  split
  · rw [rtSignalResult_endpoint]
    rfl
  · rfl

theorem rtHandlePacket_steps (tick srcPort : ℕ) (t : RtTransport) (hp : P p.abs) :
    Steps P t.endpoint (rtHandlePacket tick srcPort t p).endpoint := by
  unfold rtHandlePacket
  split
  · exact ReflTransGen.refl
  · have hacks := rtProcessAcks_steps t hp
    refine hacks.trans ?_
    rw [← rtUpdateTicks_endpoint tick (rtProcessAcks t p) p]
    generalize rtUpdateTicks tick (rtProcessAcks t p) p = u
    dsimp only
    split
    · exact ReflTransGen.refl
    · split
      · exact rtSetDisconnected_steps tick u true
      · have hpay := rtProcessPayload_steps u hp
        rw [← rtEstablish_endpoint (rtProcessPayload u p)] at hpay
        exact hpay

/-- **Incoming datagrams.** -/
theorem rtHandleUdpPacket_steps (tick srcIp srcPort : ℕ) (t : RtTransport) (d : RtDatagram)
    (hd : ∀ p, d.packet = some p → P p.abs) :
    Steps P t.endpoint (rtHandleUdpPacket tick srcIp srcPort t d).endpoint := by
  unfold rtHandleUdpPacket
  split
  · exact ReflTransGen.refl
  · split
    · exact ReflTransGen.refl
    · split
      · split
        · exact ReflTransGen.refl
        · exact ReflTransGen.refl
      · cases hpk : d.packet with
        | none => exact ReflTransGen.refl
        | some p => exact rtHandlePacket_steps tick srcPort t (hd p hpk)

/-! ### Draining -/

/-- The transport while it drains: `segs` is what is left of the receive buffer. -/
private def draining (t : RtTransport) (segs : List RtSegment) : Endpoint SegmentData :=
  { t.endpoint with buffered := segs.map RtSegment.entry }

/-- Completing the next segment is `deliver`. -/
private theorem rtComplete_steps (t : RtTransport) (s : RtSegment) (rest : List RtSegment)
    (hseq : s.seq = t.se.lastRecvCompleteSeq + 1) :
    Steps P (draining t (s :: rest)) (draining (rtComplete t s) rest) := by
  have hstep := Step.deliver (W := rudpTMaxNumAck) (P := P) (draining t (s :: rest)) s.data
    (rest.map RtSegment.entry) (by
      show (s :: rest).map RtSegment.entry = _
      rw [List.map_cons, RtSegment.entry, hseq]
      rfl)
  have heq : draining (rtComplete t s) rest = { draining t (s :: rest) with
      done := (draining t (s :: rest)).done + 1
      buffered := rest.map RtSegment.entry
      delivered := (draining t (s :: rest)).delivered ++ [s.data] } := by
    simp [draining, RtTransport.endpoint, rtComplete, hseq]
  rw [heq]
  exact ReflTransGen.single hstep

/-- Steps that leave the receive buffer alone can be taken while draining. -/
private theorem rtQueueSegment_draining (t : RtTransport) (kind : SegmentKind)
    (data : SegmentData) (segs : List RtSegment)
    (hopen : ∀ s ∈ t.se.sendSegments.head?, t.se.nextSendSeq < s.seq + rudpTMaxNumAck) :
    Steps P (draining t segs) (draining (rtQueueSegment t kind data) segs) := by
  have h := rtQueueSegment_steps (P := P)
    { t with se := { t.se with recvSegments := segs } } kind data hopen
  have heq : draining (rtQueueSegment t kind data) segs = (rtQueueSegment
      { t with se := { t.se with recvSegments := segs } } kind data).endpoint := by
    unfold rtQueueSegment
    split <;> rfl
  rw [heq]
  exact h

@[simp] theorem rtQueueSegment_lastRecvCompleteSeq (t : RtTransport) (kind : SegmentKind)
    (data : SegmentData) :
    (rtQueueSegment t kind data).se.lastRecvCompleteSeq = t.se.lastRecvCompleteSeq := by
  unfold rtQueueSegment
  split <;> rfl

private theorem rtDrainOne_steps {t' : RtTransport} {s : RtSegment} (rest : List RtSegment)
    (hseq : s.seq = t.se.lastRecvCompleteSeq + 1) (h : rtDrainOne t s = some t') :
    Steps P (draining t (s :: rest)) (draining t' rest) := by
  unfold rtDrainOne at h
  split at h
  · -- a keep-alive request
    rw [Option.some.injEq] at h
    subst h
    split
    · rename_i hempty
      exact (rtQueueSegment_draining t _ _ _ (open_of_empty hempty)).trans
        (rtComplete_steps _ s rest (by rw [rtQueueSegment_lastRecvCompleteSeq]; exact hseq))
    · exact rtComplete_steps t s rest hseq
  · split at h
    · -- a keep-alive response
      rw [Option.some.injEq] at h
      subst h
      exact rtComplete_steps t s rest hseq
    · -- stream data
      split at h
      · exact absurd h (by simp)
      · rename_i fifo hfifo
        rw [Option.some.injEq] at h
        subst h
        exact rtComplete_steps { t with
          se := { t.se with recvFifo := fifo }
          obs := { t.obs with appended := t.obs.appended ++ s.data.1 } } s rest hseq

/-- The number after draining a segment is its number. -/
theorem rtDrainOne_last {t' : RtTransport} {s : RtSegment} (h : rtDrainOne t s = some t') :
    t'.se.lastRecvCompleteSeq = s.seq := by
  unfold rtDrainOne at h
  split at h
  · rw [Option.some.injEq] at h
    subst h
    rfl
  · split at h
    · rw [Option.some.injEq] at h
      subst h
      rfl
    · split at h
      · exact absurd h (by simp)
      · rw [Option.some.injEq] at h
        subst h
        rfl

private theorem rtDrainLoop_steps (cur : ℕ) (segs : List RtSegment) (t : RtTransport)
    (hcur : t.se.lastRecvCompleteSeq = cur) :
    Steps P (draining t segs)
      (draining (rtDrainLoop cur segs t).2 (rtDrainLoop cur segs t).1) := by
  induction segs generalizing cur t with
  | nil => exact ReflTransGen.refl
  | cons s rest ih =>
    unfold rtDrainLoop
    split
    · exact ReflTransGen.refl
    · rename_i hseq
      rw [ne_eq, not_not] at hseq
      cases hone : rtDrainOne t s with
      | none => exact ReflTransGen.refl
      | some t' =>
        have hfirst := rtDrainOne_steps (P := P) rest (by rw [hcur]; exact hseq) hone
        exact hfirst.trans (ih (cur + 1) t' (by rw [rtDrainOne_last hone, hseq]))

theorem rtDrain_steps (t : RtTransport) : Steps P t.endpoint (rtDrain t).endpoint :=
  rtDrainLoop_steps t.se.lastRecvCompleteSeq t.se.recvSegments t rfl

/-! ### The pumps -/

theorem rtPumpRecvToPair_steps (tick : ℕ) (rs : List SendResult) (t : RtTransport) :
    Steps P t.endpoint (rtPumpRecvToPair tick rs t).endpoint := by
  induction rs generalizing t with
  | nil => exact ReflTransGen.refl
  | cons r rs ih =>
    unfold rtPumpRecvToPair
    split
    · split
      · exact ReflTransGen.refl
      · exact rtSetDisconnected_steps tick t false
      · exact ReflTransGen.refl
      · exact ih (rtFlush t _)
    · exact ReflTransGen.refl

theorem rtPumpPairToSend_steps (tick : ℕ) (rs : List RecvResult) (t : RtTransport) :
    Steps P t.endpoint (rtPumpPairToSend tick rs t).endpoint := by
  induction rs generalizing t with
  | nil => exact ReflTransGen.refl
  | cons r rs ih =>
    unfold rtPumpPairToSend
    split
    · exact ReflTransGen.refl
    · cases r with
      | wouldBlock => exact ReflTransGen.refl
      | failed => exact rtSetDisconnected_steps tick t false
      | eof => exact rtSetDisconnected_steps tick t false
      | chunk c => exact ih (rtIngest t c)

/-- The check of the segmenting loop opens the window. -/
theorem open_of_seqMin (h : ¬(seqMin t ≠ 0 ∧ seqMin t + rudpTMaxNumAck - 1 < t.se.nextSendSeq))
    (hpos : ∀ s ∈ t.se.sendSegments.head?, 1 ≤ s.seq) :
    ∀ s ∈ t.se.sendSegments.head?, t.se.nextSendSeq < s.seq + rudpTMaxNumAck := by
  intro s hs
  have hmin : seqMin t = s.seq := by
    rw [Option.mem_def] at hs
    rw [seqMin, hs]
    rfl
  have hs1 := hpos s hs
  rw [hmin] at h
  have h64 : rudpTMaxNumAck = 64 := rfl
  omega

/-- Cutting a segment is `push`. -/
theorem rtCutSegment_steps
    (hopen : ∀ s ∈ t.se.sendSegments.head?, t.se.nextSendSeq < s.seq + rudpTMaxNumAck) :
    Steps P t.endpoint (rtCutSegment t).endpoint :=
  rtQueueSegment_steps t .stream (rtNextChunk t) hopen

/-- The first outstanding number of a send queue in order is positive. -/
theorem SendOk.head_pos (h : SendOk rudpTMaxNumAck t.endpoint) :
    ∀ s ∈ t.se.sendSegments.head?, 1 ≤ s.seq := by
  intro s hs
  exact (h.data s.entry (List.mem_map_of_mem (List.mem_of_mem_head? hs))).1

/-- The send queue stays in order. -/
theorem sendOk_of_steps {e e' : Endpoint SegmentData} (h : SendOk rudpTMaxNumAck e)
    (hs : Steps P e e') : SendOk rudpTMaxNumAck e' :=
  reflTransGen_invariant (fun _ _ hx hxy => hx.step (by decide) hxy) hs h

theorem rtSegmentLoop_steps (fuel : ℕ) (h : SendOk rudpTMaxNumAck t.endpoint) :
    Steps P t.endpoint (rtSegmentLoop fuel t).endpoint := by
  induction fuel generalizing t with
  | zero => exact ReflTransGen.refl
  | succ fuel ih =>
    unfold rtSegmentLoop
    split
    · exact ReflTransGen.refl
    · rename_i hwin
      split
      · exact ReflTransGen.refl
      · have hcut := rtCutSegment_steps (P := P) (open_of_seqMin hwin (SendOk.head_pos h))
        exact hcut.trans (ih (sendOk_of_steps h hcut))

theorem rtPump_steps (io : RtIo) (h : SendOk rudpTMaxNumAck t.endpoint) :
    Steps P t.endpoint (rtPump io t).endpoint := by
  have hrecv := rtPumpRecvToPair_steps (P := P) io.tick io.sends t
  have hsend := hrecv.trans (rtPumpPairToSend_steps io.tick io.recvs _)
  exact hsend.trans (rtSegmentLoop_steps _ (sendOk_of_steps h hsend))

/-! ### The periodic processing -/

@[simp] theorem rtIcmpEcho_endpoint (io : RtIo) (t : RtTransport) :
    (rtIcmpEcho io t).endpoint = t.endpoint :=
  rtSendUdp_endpoint io.tick t .icmpEcho rfl

@[simp] theorem rtIcmpKeepalive_endpoint (io : RtIo) (t : RtTransport) :
    (rtIcmpKeepalive io t).endpoint = t.endpoint := by
  unfold rtIcmpKeepalive
  split
  · exact rtIcmpEcho_endpoint io t
  · rfl

@[simp] theorem rtConnectRequest_endpoint (io : RtIo) (t : RtTransport) :
    (rtConnectRequest io t).endpoint = t.endpoint := by
  unfold rtConnectRequest
  split
  · dsimp only
    split
    · exact (rtSendUdp_endpoint io.tick _ .request rfl).trans (rtIcmpEcho_endpoint io t)
    · exact rtSendUdp_endpoint io.tick t .request rfl
  · rfl

theorem rtConnectTimeout_steps (io : RtIo) (t : RtTransport) :
    Steps P t.endpoint (rtConnectTimeout io t).endpoint := by
  unfold rtConnectTimeout
  split
  · exact rtSetDisconnected_steps io.tick { t with errorCode := .timeout } false
  · exact ReflTransGen.refl

theorem rtKeepalive_steps (io : RtIo) (t : RtTransport) :
    Steps P t.endpoint (rtKeepalive io t).endpoint := by
  unfold rtKeepalive
  split
  · dsimp only
    split
    · rename_i hempty
      exact rtQueueSegment_steps t .keepAlive _ (open_of_empty hempty)
    · exact ReflTransGen.refl
  · exact ReflTransGen.refl

/-- Sending segments of the queue one after the other leaves the queue as it is. -/
private theorem sendAll_steps (tick : ℕ) (segs : List RtSegment) (t : RtTransport)
    (hsub : ∀ s ∈ segs, s ∈ t.se.sendSegments) :
    Steps P t.endpoint
      (segs.foldl (fun t s => rtSendSegmentNow tick t s.seq s.data.1) t).endpoint ∧
    (segs.foldl (fun t s => rtSendSegmentNow tick t s.seq s.data.1) t).se.sendSegments =
      t.se.sendSegments := by
  induction segs generalizing t with
  | nil => exact ⟨ReflTransGen.refl, rfl⟩
  | cons s segs ih =>
    have hfirst := rtSendSegmentNow_steps (P := P) tick t s.seq s.data.1
      (Or.inr ⟨s, hsub s List.mem_cons_self, rfl, rfl⟩)
    obtain ⟨hrest, hsame⟩ := ih (rtSendSegmentNow tick t s.seq s.data.1)
      (fun r hr => hsub r (List.mem_cons_of_mem s hr))
    exact ⟨hfirst.trans hrest, hsame⟩

theorem rtRetransmit_steps (io : RtIo) (t : RtTransport) :
    Steps P t.endpoint (rtRetransmit io t).endpoint := by
  obtain ⟨hsend, hsame⟩ := sendAll_steps (P := P) io.tick
    (t.se.sendSegments.filter (rtDue io t)) t (fun s hs => List.mem_of_mem_filter hs)
  refine hsend.trans ?_
  -- the counters and the time of the next transmission are not part of the endpoint
  have hentries : ∀ s : RtSegment, RtSegment.entry (if rtDue io t s then
      { s with numSent := s.numSent + 1, nextSendTick := io.tick + rtInterval t s } else s)
      = s.entry := by
    intro s
    split <;> rfl
  have heq : (rtRetransmit io t).endpoint =
      ((t.se.sendSegments.filter (rtDue io t)).foldl
        (fun t s => rtSendSegmentNow io.tick t s.seq s.data.1) t).endpoint := by
    simp only [rtRetransmit, RtTransport.endpoint, hsame, List.map_map, Function.comp_def,
      hentries]
  rw [heq]

theorem rtSendAcks_steps (io : RtIo) (t : RtTransport) :
    Steps P t.endpoint (rtSendAcks io t).endpoint := by
  unfold rtSendAcks
  split
  · exact rtSendSegmentNow_steps io.tick t _ [] (Or.inl rfl)
  · exact ReflTransGen.refl

/-- **Interrupts.** The send queue in order is what keeps the window open for the
    segmenting loop. -/
theorem rtInterrupt_steps (io : RtIo) (h : SendOk rudpTMaxNumAck t.endpoint) :
    Steps P t.endpoint (rtInterrupt io t).endpoint := by
  unfold rtInterrupt
  cases hst : t.se.status with
  | connectSent =>
    have htime := rtConnectTimeout_steps (P := P) io (rtConnectRequest io t)
    rw [rtConnectRequest_endpoint] at htime
    dsimp only
    rw [rtIcmpKeepalive_endpoint]
    exact htime
  | disconnected => exact ReflTransGen.refl
  | established =>
    dsimp only
    split
    · exact rtSetDisconnected_steps io.tick { t with errorCode := .timeout } false
    · have hdrain := rtDrain_steps (P := P) t
      have hpump := hdrain.trans (rtPump_steps io (sendOk_of_steps h hdrain))
      have hkeep := hpump.trans (rtKeepalive_steps io _)
      rw [← rtIcmpKeepalive_endpoint io (rtKeepalive io _)] at hkeep
      exact (hkeep.trans (rtRetransmit_steps io _)).trans (rtSendAcks_steps io _)

/-- **Any action of the worker**, when what arrives is in `P`. -/
theorem rtStep_steps {P : Packet SegmentData → Prop} (h : SendOk rudpTMaxNumAck t.endpoint)
    (a : RtAction)
    (ha : ∀ tick srcIp srcPort d p, a = .datagram tick srcIp srcPort d → d.packet = some p →
      P p.abs) : Steps P t.endpoint (rtStep t a).endpoint := by
  cases a with
  | datagram tick srcIp srcPort d =>
    exact rtHandleUdpPacket_steps tick srcIp srcPort t d (fun p hp => ha _ _ _ d p rfl hp)
  | interrupt io => exact rtInterrupt_steps io h
  | halt tick => exact rtSetDisconnected_steps tick t false

end SoftEther.Transport
