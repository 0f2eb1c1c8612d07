import SoftEther.Transport.Session

namespace SoftEther.Transport

open Lib

/-!
# The bytes of a session

The two byte streams of a transport, as a view of its state: `Inbound` is written by the
drain loop only, `Outbound` by the application pump and the segmenting loop only.  Segments
are queued by the keep-alive, the drain loop and the segmenting loop only, and the peer's
endpoint is written on a datagram only.

* `*_kept` — what the other functions leave alone, one lemma for each function;
* `rtHandleUdpPacket_moved` — what a datagram leaves alone;
* `rtInterrupt_established_kept`, `rtInterrupt_idle_kept` — the same for an interrupt.
-/

/-- What the drain loop reads and writes of the record. -/
structure Inbound where
  magicReq : Sha1Value
  magicResp : Sha1Value
  drained : List SegmentData
  appended : List UInt8

/-- What the application has written, the stream segments cut from it, every queued
    payload that a receiver does not take for a keep-alive, and what waits. -/
structure Outbound where
  appRead : List UInt8
  streamed : List SegmentData
  plain : List SegmentData
  sendFifo : RingBuffer UInt8

/-- A receiver takes the payload for a keep-alive. -/
def isKeepAlive (req resp : Sha1Value) (data : SegmentData) : Bool :=
  isMagic data req || isMagic data resp

/-- The payloads that are not taken for a keep-alive. -/
def plainOf (req resp : Sha1Value) (l : List SegmentData) : List SegmentData :=
  l.filter (fun d => !isKeepAlive req resp d)

/-- The payloads of the stream segments queued so far, oldest first. -/
def RtObs.streamPayloads (o : RtObs) : List SegmentData :=
  (o.queued.filter (fun q => q.1 = .stream)).map Prod.snd

/-- The bytes of a list of payloads, in order. -/
def concat (l : List SegmentData) : List UInt8 := l.flatMap Subtype.val

/-- The two byte streams of a transport. -/
def RtTransport.bytes (t : RtTransport) : Inbound × Outbound :=
  (⟨t.se.magicReq, t.se.magicResp, t.obs.drained, t.obs.appended⟩,
    ⟨t.obs.appRead, t.obs.streamPayloads,
      plainOf t.se.magicReq t.se.magicResp (t.obs.queued.map Prod.snd), t.se.sendFifo⟩)

/-- Address and port of the peer. -/
def RtTransport.peer (t : RtTransport) : ℕ × ℕ := (t.se.yourIp, t.se.yourPort)

/-- The bytes of both streams, and the segments queued so far. -/
def RtTransport.moved (t : RtTransport) :
    (Inbound × Outbound) × List (SegmentKind × SegmentData) :=
  (t.bytes, t.obs.queued)

/-- The same, and the peer's endpoint. -/
def RtTransport.kept (t : RtTransport) :
    ((Inbound × Outbound) × List (SegmentKind × SegmentData)) × ℕ × ℕ :=
  (t.moved, t.peer)

/-- A magic is taken for itself. -/
theorem isMagic_toSegmentData (v : Sha1Value) : isMagic v.toSegmentData v = true := by
  simp [isMagic, Sha1Value.toSegmentData, v.2]

/-! ### Keep-alives -/

/-- A keep-alive segment is not part of the stream. -/
theorem rtQueueSegment_keepAlive_bytes (t : RtTransport) {data : SegmentData}
    (h : isKeepAlive t.se.magicReq t.se.magicResp data = true) :
    (rtQueueSegment t .keepAlive data).bytes = t.bytes := by
  unfold rtQueueSegment
  split
  · rfl
  · simp [RtTransport.bytes, RtObs.streamPayloads, plainOf, h]

/-- A segment that is queued goes to the endpoint that is known. -/
@[simp] theorem rtQueueSegment_peer (t : RtTransport) (kind : SegmentKind)
    (data : SegmentData) : (rtQueueSegment t kind data).peer = t.peer := by
  unfold rtQueueSegment
  split <;> rfl

/-- The keep-alive request. -/
theorem isKeepAlive_req (t : RtTransport) :
    isKeepAlive t.se.magicReq t.se.magicResp t.se.magicReq.toSegmentData = true := by
  rw [isKeepAlive, isMagic_toSegmentData, Bool.true_or]

/-- The keep-alive response. -/
theorem isKeepAlive_resp (t : RtTransport) :
    isKeepAlive t.se.magicReq t.se.magicResp t.se.magicResp.toSegmentData = true := by
  rw [isKeepAlive, isMagic_toSegmentData, Bool.or_true]

/-! ### Functions that move nothing -/

/-- A number is noted for the next acknowledgment. -/
@[simp] theorem rtAddAck_kept (t : RtTransport) (seq : ℕ) :
    (rtAddAck t seq).kept = t.kept := by
  unfold rtAddAck
  split
  · rfl
  · split <;> rfl

/-- What is acknowledged leaves `send_segments` and no other record. -/
@[simp] theorem rtProcessAcks_kept (t : RtTransport) (p : RtPacket) :
    (rtProcessAcks t p).kept = t.kept := by
  have hfold : ∀ (acks : List ℕ) (u : RtTransport),
      (acks.foldl rtProcessAck u).kept = u.kept := by
    intro acks
    induction acks with
    | nil => exact fun u => rfl
    | cons s acks ih => exact fun u => ih (rtProcessAck u s)
  unfold rtProcessAcks
  rw [hfold]
  split <;> rfl

/-- A payload waits in the reorder buffer. -/
@[simp] theorem rtProcessPayload_kept (t : RtTransport) (p : RtPacket) :
    (rtProcessPayload t p).kept = t.kept := by
  unfold rtProcessPayload
  split
  · unfold rtProcessRecvPayload
    split
    · rfl
    · split
      · exact rtAddAck_kept _ _
      · split
        · exact rtAddAck_kept _ _
        · split
          · rfl
          · exact rtAddAck_kept _ _
  · rfl

/-- The thread that connects is told the result. -/
@[simp] theorem rtSignalResult_kept (t : RtTransport) (ok : Bool) :
    (rtSignalResult t ok).kept = t.kept := by
  unfold rtSignalResult
  split <;> rfl

/-- The disconnects are sent past the queue. -/
@[simp] theorem rtSendDisconnects_kept (tick : ℕ) (t : RtTransport) (n : ℕ) :
    (rtSendDisconnects tick t n).kept = t.kept := by
  induction n generalizing t with
  | zero => rfl
  | succ n ih => exact ih _

/-- The end of the session. -/
@[simp] theorem rtSetDisconnected_kept (tick : ℕ) (t : RtTransport) (byYou : Bool) :
    (rtSetDisconnected tick t byYou).kept = t.kept := by
  unfold rtSetDisconnected
  split
  · rfl
  · rw [rtSignalResult_kept]
    split
    · exact rtSendDisconnects_kept tick t 5
    · rfl

theorem rtSetDisconnected_bytes (tick : ℕ) (t : RtTransport) (byYou : Bool) :
    (rtSetDisconnected tick t byYou).bytes = t.bytes :=
  congrArg (fun k => k.1.1) (rtSetDisconnected_kept tick t byYou)

@[simp] theorem rtUpdateTicks_kept (tick : ℕ) (t : RtTransport) (p : RtPacket) :
    (rtUpdateTicks tick t p).kept = t.kept := rfl

/-- The first segment ends the connecting state. -/
@[simp] theorem rtEstablish_kept (t : RtTransport) : (rtEstablish t).kept = t.kept := by
  unfold rtEstablish
  split
  · exact rtSignalResult_kept _ _
  · rfl

/-- A packet may change the port and nothing else of this. -/
theorem rtHandlePacket_moved (tick srcPort : ℕ) (t : RtTransport) (p : RtPacket) :
    (rtHandlePacket tick srcPort t p).moved = t.moved := by
  have hacks : (rtUpdateTicks tick (rtProcessAcks t p) p).kept = t.kept := by simp
  unfold rtHandlePacket
  dsimp only
  split_ifs
  · rfl
  · exact congrArg Prod.fst hacks
  · exact congrArg Prod.fst ((rtSetDisconnected_kept tick _ true).trans hacks)
  · have hpayload := (rtProcessPayload_kept _ p).trans hacks
    exact congrArg Prod.fst ((rtEstablish_kept _).trans hpayload)

/-- **A datagram moves no bytes and queues nothing.** Payloads go to the reorder buffer
    only. -/
@[simp] theorem rtHandleUdpPacket_moved (tick srcIp srcPort : ℕ) (t : RtTransport)
    (d : RtDatagram) : (rtHandleUdpPacket tick srcIp srcPort t d).moved = t.moved := by
  unfold rtHandleUdpPacket
  split
  · rfl
  · split
    · rfl
    · split
      · split <;> rfl
      · cases d.packet with
        | none => rfl
        | some p => exact rtHandlePacket_moved tick srcPort t p

theorem rtHandleUdpPacket_bytes (tick srcIp srcPort : ℕ) (t : RtTransport) (d : RtDatagram) :
    (rtHandleUdpPacket tick srcIp srcPort t d).bytes = t.bytes :=
  congrArg Prod.fst (rtHandleUdpPacket_moved tick srcIp srcPort t d)

/-- What the application takes was counted when it was drained. -/
@[simp] theorem rtPumpRecvToPair_kept (tick : ℕ) (rs : List SendResult) (t : RtTransport) :
    (rtPumpRecvToPair tick rs t).kept = t.kept := by
  induction rs generalizing t with
  | nil => rfl
  | cons r rs ih =>
    unfold rtPumpRecvToPair
    split
    · split
      · rfl
      · exact rtSetDisconnected_kept tick t false
      · rfl
      · exact ih (rtFlush t _)
    · rfl

theorem rtPumpRecvToPair_bytes (tick : ℕ) (rs : List SendResult) (t : RtTransport) :
    (rtPumpRecvToPair tick rs t).bytes = t.bytes :=
  congrArg (fun k => k.1.1) (rtPumpRecvToPair_kept tick rs t)

/-- The keep-alive of ICMP is no segment. -/
@[simp] theorem rtIcmpKeepalive_kept (io : RtIo) (t : RtTransport) :
    (rtIcmpKeepalive io t).kept = t.kept := by
  unfold rtIcmpKeepalive
  split <;> rfl

/-- The request that starts the session is no segment. -/
@[simp] theorem rtConnectRequest_kept (io : RtIo) (t : RtTransport) :
    (rtConnectRequest io t).kept = t.kept := by
  unfold rtConnectRequest
  split
  · dsimp only
    split <;> rfl
  · rfl

/-- The time-out of the connecting state ends the session. -/
@[simp] theorem rtConnectTimeout_kept (io : RtIo) (t : RtTransport) :
    (rtConnectTimeout io t).kept = t.kept := by
  unfold rtConnectTimeout
  split
  · exact rtSetDisconnected_kept io.tick { t with errorCode := .timeout } false
  · rfl

/-- What the keep-alive queues is not part of the stream. -/
theorem rtKeepalive_bytes (io : RtIo) (t : RtTransport) :
    (rtKeepalive io t).bytes = t.bytes := by
  unfold rtKeepalive
  split
  · dsimp only
    split
    · exact rtQueueSegment_keepAlive_bytes t (isKeepAlive_req t)
    · rfl
  · rfl

/-- A segment that is sent again is not queued again. -/
@[simp] theorem rtRetransmit_kept (io : RtIo) (t : RtTransport) :
    (rtRetransmit io t).kept = t.kept := by
  -- over the segments that are due; each is sent as it was queued
  have hfold : ∀ (segs : List RtSegment) (u : RtTransport),
      (segs.foldl (fun u s => rtSendSegmentNow io.tick u s.seq s.data.1) u).kept = u.kept := by
    intro segs
    induction segs with
    | nil => exact fun u => rfl
    | cons s segs ih => exact fun u => ih (rtSendSegmentNow io.tick u s.seq s.data.1)
  exact hfold _ t

/-- Acknowledgments travel without a payload. -/
@[simp] theorem rtSendAcks_kept (io : RtIo) (t : RtTransport) :
    (rtSendAcks io t).kept = t.kept := by
  unfold rtSendAcks
  split <;> rfl

/-! ### The pumps write one stream each -/

/-- The segmenting loop writes the outbound stream only. -/
theorem rtCutSegment_inbound (t : RtTransport) : (rtCutSegment t).bytes.1 = t.bytes.1 := by
  unfold rtCutSegment rtQueueSegment
  split <;> rfl

/-- One drained segment: its answer is not part of the stream. -/
theorem rtDrainOne_rest {t t' : RtTransport} {s : RtSegment} (h : rtDrainOne t s = some t') :
    (t'.bytes.2, t'.peer) = (t.bytes.2, t.peer) := by
  unfold rtDrainOne at h
  split at h
  · rw [Option.some.injEq] at h
    subst h
    split
    · have hqueue := congrArg Prod.snd (rtQueueSegment_keepAlive_bytes t (isKeepAlive_resp t))
      exact Prod.ext hqueue (rtQueueSegment_peer t .keepAlive _)
    · rfl
  · split at h
    · rw [Option.some.injEq] at h
      subst h
      rfl
    · split at h
      · exact absurd h (by simp)
      · rw [Option.some.injEq] at h
        subst h
        rfl

/-- The drain loop writes the inbound stream only. -/
theorem rtDrain_rest (t : RtTransport) :
    ((rtDrain t).bytes.2, (rtDrain t).peer) = (t.bytes.2, t.peer) := by
  have hloop : ∀ (segs : List RtSegment) (cur : ℕ) (u : RtTransport),
      ((rtDrainLoop cur segs u).2.bytes.2, (rtDrainLoop cur segs u).2.peer) =
        (u.bytes.2, u.peer) := by
    intro segs
    induction segs with
    | nil => exact fun cur u => rfl
    | cons s rest ih =>
      intro cur u
      unfold rtDrainLoop
      split
      · rfl
      · cases hone : rtDrainOne u s with
        | none => rfl
        | some u' => exact (ih (cur + 1) u').trans (rtDrainOne_rest hone)
  exact hloop t.se.recvSegments t.se.lastRecvCompleteSeq t

theorem rtDrain_outbound (t : RtTransport) : (rtDrain t).bytes.2 = t.bytes.2 :=
  congrArg Prod.fst (rtDrain_rest t)

/-- The application pump queues nothing; what it reads waits in `send_fifo`. -/
theorem rtPumpPairToSend_rest (tick : ℕ) (rs : List RecvResult) (t : RtTransport) :
    ((rtPumpPairToSend tick rs t).obs.queued, (rtPumpPairToSend tick rs t).peer) =
      (t.obs.queued, t.peer) := by
  have hdisconnected := fun u =>
    congrArg (fun k => (k.1.2, k.2)) (rtSetDisconnected_kept tick u false)
  induction rs generalizing t with
  | nil => rfl
  | cons r rs ih =>
    unfold rtPumpPairToSend
    split
    · rfl
    · cases r with
      | wouldBlock => rfl
      | failed => exact hdisconnected t
      | eof => exact hdisconnected t
      | chunk c => exact ih (rtIngest t c)

/-- The stages of an interrupt behind the keep-alive. -/
theorem rtInterrupt_established_kept (io : RtIo) {t : RtTransport}
    (hst : t.se.status = .established)
    (hlive : ¬ io.tick ≥ t.se.latestRecvMyTick + rudpTTimeoutMs) :
    (rtInterrupt io t).kept = (rtKeepalive io (rtPump io (rtDrain t))).kept := by
  unfold rtInterrupt
  rw [hst]
  dsimp only
  rw [if_neg hlive]
  simp

/-- An interrupt that does not reach the pumps. -/
theorem rtInterrupt_idle_kept (io : RtIo) {t : RtTransport}
    (h : t.se.status ≠ .established ∨ io.tick ≥ t.se.latestRecvMyTick + rudpTTimeoutMs) :
    (rtInterrupt io t).kept = t.kept := by
  unfold rtInterrupt
  cases hst : t.se.status with
  | connectSent => simp
  | disconnected => rfl
  | established =>
    have hlate : io.tick ≥ t.se.latestRecvMyTick + rudpTTimeoutMs := by
      rcases h with h | h
      · exact absurd hst h
      · exact h
    dsimp only
    rw [if_pos hlate]
    exact rtSetDisconnected_kept io.tick { t with errorCode := .timeout } false

/-- The stages of an interrupt behind the pumps move no bytes. -/
theorem rtInterrupt_established_bytes (io : RtIo) {t : RtTransport}
    (hst : t.se.status = .established)
    (hlive : ¬ io.tick ≥ t.se.latestRecvMyTick + rudpTTimeoutMs) :
    (rtInterrupt io t).bytes = (rtPump io (rtDrain t)).bytes :=
  (congrArg (fun k => k.1.1) (rtInterrupt_established_kept io hst hlive)).trans
    (rtKeepalive_bytes io _)

/-- An interrupt that does not reach the pumps moves no bytes. -/
theorem rtInterrupt_idle_bytes (io : RtIo) {t : RtTransport}
    (h : t.se.status ≠ .established ∨ io.tick ≥ t.se.latestRecvMyTick + rudpTTimeoutMs) :
    (rtInterrupt io t).bytes = t.bytes :=
  congrArg (fun k => k.1.1) (rtInterrupt_idle_kept io h)

end SoftEther.Transport
