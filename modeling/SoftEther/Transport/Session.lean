import SoftEther.Lib.RingBuffer

namespace SoftEther.Transport

open Lib

/-!
# The NAT-T reliable transport (`proto/rudp_transport.c`)

One endpoint of the virtual TCP connection over UDP, at the level of decoded packets:
the session of `rt_session_t`, the functions of the worker thread on it, and the
worker's periodic `rt_interrupt`.

* the answers of the operating system (`send`, `recv`, the clock, the random generator)
  are inputs, collected in `RtIo`; the clock is read once per action;
* sequence numbers and ticks are natural numbers, and a difference of ticks is taken
  modulo `2 ^ 64` as in the source;
* `RtObs` records what the session has done so far; no function of the model reads it.
-/

/-! ### Constants (`rudp_transport.h`) -/

def rudpTSha1Size : ℕ := 20
def rudpTResendTimer : ℕ := 200
def rudpTResendTimerMax : ℕ := 4792
def rudpTKeepaliveMin : ℕ := 2500
def rudpTKeepaliveMax : ℕ := 4792
def rudpTTimeoutMs : ℕ := 12000
def rudpTMaxSegmentSize : ℕ := 512
def rudpTMaxNumAck : ℕ := 64
def rudpTIcmpEchoIntervalMin : ℕ := 1000
def rudpTIcmpEchoIntervalMax : ℕ := 3000
def rudpTMaxFifoSize : ℕ := 512 * 1024

/-- `RUDP_T_ERR_*`. -/
inductive RtError
  | ok
  | unknown
  | timeout
  deriving DecidableEq, Repr

/-- `RUDP_T_MODE_*`. -/
inductive RtMode
  | udp
  | dns
  | icmp
  deriving DecidableEq, Repr

/-- `RT_STATUS_*`. -/
inductive RtStatus
  | connectSent
  | established
  | disconnected
  deriving DecidableEq, Repr

/-! ### Data -/

/-- The data of a segment: it fits `rt_segment_t.data`. -/
abbrev SegmentData := { d : List UInt8 // d.length ≤ rudpTMaxSegmentSize }

/-- A SHA-1 sized value, such as a keep-alive magic. -/
abbrev Sha1Value := { d : List UInt8 // d.length = rudpTSha1Size }

/-- A magic is short enough to be the data of a segment. -/
def Sha1Value.toSegmentData (v : Sha1Value) : SegmentData :=
  ⟨v.1, by rw [v.2]; decide⟩

/-- `rt_segment_t`. -/
structure RtSegment where
  seq : ℕ
  data : SegmentData
  nextSendTick : ℕ
  numSent : ℕ

/-- The header and the payload of a segment on the wire, decoded: `num_ack` is at most
    `RUDP_T_MAX_NUM_ACK`, larger ones do not decode. -/
structure RtPacket where
  myTick : ℕ
  yourTick : ℕ
  maxAck : ℕ
  acks : List ℕ
  seq : ℕ
  payload : List UInt8
  acks_le : acks.length ≤ rudpTMaxNumAck

/-- A datagram after the transport framing is stripped: its size, and what signature
    check, decryption and header parsing make of it. -/
structure RtDatagram where
  size : ℕ
  packet : Option RtPacket

/-- What the worker sends. -/
inductive RtOutput
  | segment (p : RtPacket)
  | request
  | icmpEcho

/-- Why a segment was queued: application data, or one of the two keep-alives. -/
inductive SegmentKind
  | stream
  | keepAlive
  deriving DecidableEq, Repr

/-- The record of a session: bytes read from the application, segments queued, packets
    sent, segments drained in order, bytes appended to `recv_fifo`, and bytes handed to
    the application. -/
structure RtObs where
  appRead : List UInt8
  queued : List (SegmentKind × SegmentData)
  sent : List RtOutput
  drained : List SegmentData
  appended : List UInt8
  appWritten : List UInt8

/-- `rt_session_t`, without the keys and the IV of the wire codec. -/
structure RtSession where
  status : RtStatus
  magicReq : Sha1Value
  magicResp : Sha1Value
  magicDisconnect : ℕ
  nextSendSeq : ℕ
  lastRecvCompleteSeq : ℕ
  yourTick : ℕ
  latestRecvMyTick : ℕ
  latestRecvMyTick2 : ℕ
  currentRtt : ℕ
  lastSentTick : ℕ
  nextKeepaliveInterval : ℕ
  createdTick : ℕ
  nextIcmpEchoTick : ℕ
  yourIp : ℕ
  yourPort : ℕ
  sendSegments : List RtSegment
  recvSegments : List RtSegment
  replyAcks : List ℕ
  sendFifo : RingBuffer UInt8
  recvFifo : RingBuffer UInt8

/-- `struct rudp_transport`: the session, the result the connecting thread waits for, and
    whether the worker's end of the socket pair has been shut down. -/
structure RtTransport where
  transportMode : RtMode
  icmpType : ℕ
  connectTimeoutMs : ℕ
  errorCode : RtError
  resultReady : Bool
  resultOk : Bool
  workerShut : Bool
  se : RtSession
  obs : RtObs

/-- One answer of `send` on the socket pair. -/
inductive SendResult
  | wrote (w : ℕ)
  | wouldBlock
  | failed

/-- A chunk that `recv` into a buffer of `RUDP_T_MAX_SEGMENT_SIZE` bytes can return. -/
abbrev RecvChunk := { d : List UInt8 // 1 ≤ d.length ∧ d.length ≤ rudpTMaxSegmentSize }

/-- One answer of `recv` on the socket pair. -/
inductive RecvResult
  | chunk (c : RecvChunk)
  | wouldBlock
  | eof
  | failed

/-- What the environment answers during one `rt_interrupt`: a clock reading, two random
    numbers, and the results of the successive `send` and `recv` calls (they would block
    once the list is used up). -/
structure RtIo where
  tick : ℕ
  echoRand : ℕ
  keepaliveRand : ℕ
  sends : List SendResult
  recvs : List RecvResult

/-- Difference of two `uint64_t`. -/
def sub64 (a b : ℕ) : ℕ := (a + 2 ^ 64 - b % 2 ^ 64) % 2 ^ 64

/-! ### Sending -/

/-- `rt_send_udp`: every datagram has at least one byte. -/
def rtSendUdp (tick : ℕ) (t : RtTransport) (out : RtOutput) : RtTransport :=
  { t with
    se := { t.se with lastSentTick := tick }
    obs := { t.obs with sent := t.obs.sent ++ [out] } }

/-- The packet `rt_send_segment_now` builds. -/
def rtPacketNow (tick : ℕ) (t : RtTransport) (seq : ℕ) (data : List UInt8) : RtPacket where
  myTick := tick
  yourTick := t.se.yourTick
  maxAck := t.se.lastRecvCompleteSeq
  acks := t.se.replyAcks.take rudpTMaxNumAck
  seq := seq
  payload := data
  acks_le := by rw [List.length_take]; exact Nat.min_le_left _ _

/-- `rt_send_segment_now`. -/
def rtSendSegmentNow (tick : ℕ) (t : RtTransport) (seq : ℕ) (data : List UInt8) : RtTransport :=
  rtSendUdp tick { t with se := { t.se with replyAcks := [] } }
    (.segment (rtPacketNow tick t seq data))

/-- `rt_queue_segment`. A full queue drops the segment. -/
def rtQueueSegment (t : RtTransport) (kind : SegmentKind) (data : SegmentData) : RtTransport :=
  if t.se.sendSegments.length ≥ rudpTMaxNumAck then t
  else
    { t with
      se := { t.se with
        sendSegments := t.se.sendSegments ++
          [{ seq := t.se.nextSendSeq, data := data, nextSendTick := 0, numSent := 0 }]
        nextSendSeq := t.se.nextSendSeq + 1 }
      obs := { t.obs with queued := t.obs.queued ++ [(kind, data)] } }

/-! ### Acknowledgements and received payloads -/

/-- `rt_process_ack`: remove the first segment with this number. -/
def rtProcessAck (t : RtTransport) (seq : ℕ) : RtTransport :=
  { t with se := { t.se with
      sendSegments := t.se.sendSegments.eraseP (fun s => s.seq == seq) } }

/-- `rt_process_ack2`: remove all segments up to this number. -/
def rtProcessAck2 (t : RtTransport) (maxSeq : ℕ) : RtTransport :=
  { t with se := { t.se with
      sendSegments := t.se.sendSegments.filter (fun s => maxSeq < s.seq) } }

/-- `rt_add_ack`. -/
def rtAddAck (t : RtTransport) (seq : ℕ) : RtTransport :=
  if seq ∈ t.se.replyAcks then t
  else if t.se.replyAcks.length < rudpTMaxNumAck then
    { t with se := { t.se with replyAcks := t.se.replyAcks ++ [seq] } }
  else t

/-- `rt_process_recv_payload`: the segment goes to the end of `recv_segments`, whatever
    its number. -/
def rtProcessRecvPayload (t : RtTransport) (seq : ℕ) (payload : SegmentData) : RtTransport :=
  if seq > t.se.lastRecvCompleteSeq + rudpTMaxNumAck then t
  else if seq ≤ t.se.lastRecvCompleteSeq then rtAddAck t seq
  else if seq ∈ t.se.recvSegments.map RtSegment.seq then rtAddAck t seq
  else if t.se.recvSegments.length ≥ rudpTMaxNumAck then t
  else
    rtAddAck { t with se := { t.se with
      recvSegments := t.se.recvSegments ++
        [{ seq := seq, data := payload, nextSendTick := 0, numSent := 0 }] } } seq

/-! ### The end of a session -/

/-- `rt_signal_result`: the first result stays. -/
def rtSignalResult (t : RtTransport) (ok : Bool) : RtTransport :=
  if t.resultReady then t else { t with resultReady := true, resultOk := ok }

/-- The five disconnect segments. -/
def rtSendDisconnects (tick : ℕ) (t : RtTransport) : ℕ → RtTransport
  | 0 => t
  | n + 1 => rtSendDisconnects tick (rtSendSegmentNow tick t t.se.magicDisconnect []) n

/-- `rt_set_disconnected`. -/
def rtSetDisconnected (tick : ℕ) (t : RtTransport) (byYou : Bool) : RtTransport :=
  if t.se.status = .disconnected then t
  else
    let t := if !byYou && t.se.status = .established then rtSendDisconnects tick t 5 else t
    rtSignalResult { t with
      se := { t.se with status := .disconnected }
      workerShut := true } false

/-! ### Incoming datagrams -/

/-- The tick and RTT part of `rt_handle_udp_packet`. -/
def rtUpdateTicks (tick : ℕ) (t : RtTransport) (p : RtPacket) : RtTransport :=
  let myTick := if p.myTick ≥ 2 then p.myTick - 1 else p.myTick
  let latest := if p.yourTick > t.se.latestRecvMyTick then p.yourTick else t.se.latestRecvMyTick
  { t with se := { t.se with
      yourTick := if myTick > t.se.yourTick then myTick else t.se.yourTick
      latestRecvMyTick := latest
      latestRecvMyTick2 := latest
      currentRtt :=
        if t.se.latestRecvMyTick2 ≠ latest then
          (if tick ≥ latest then (tick - latest) % 2 ^ 32 else 0)
        else t.se.currentRtt } }

/-- The acknowledgements of a packet, the cumulative one first. -/
def rtProcessAcks (t : RtTransport) (p : RtPacket) : RtTransport :=
  p.acks.foldl rtProcessAck (if p.maxAck ≥ 1 then rtProcessAck2 t p.maxAck else t)

/-- The payload of a packet; one that is empty or too long is ignored. -/
def rtProcessPayload (t : RtTransport) (p : RtPacket) : RtTransport :=
  if h : 1 ≤ p.payload.length ∧ p.payload.length ≤ rudpTMaxSegmentSize then
    rtProcessRecvPayload t p.seq ⟨p.payload, h.2⟩
  else t

/-- The first valid segment establishes the session. -/
def rtEstablish (t : RtTransport) : RtTransport :=
  if t.se.status = .connectSent then
    rtSignalResult { t with se := { t.se with status := .established } } true
  else t

/-- What `rt_handle_udp_packet` does with a packet that verified and decoded. -/
def rtHandlePacket (tick srcPort : ℕ) (t : RtTransport) (p : RtPacket) : RtTransport :=
  if p.yourTick > tick then t
  else
    let t := rtUpdateTicks tick (rtProcessAcks t p) p
    if p.seq = 0 then t
    else if p.seq = t.se.magicDisconnect then rtSetDisconnected tick t true
    else
      let t := rtEstablish (rtProcessPayload t p)
      { t with se := { t.se with yourPort := srcPort } }

/-- `rt_handle_udp_packet`.  The branch for short packets comes after a check that
    already rejects them. -/
def rtHandleUdpPacket (tick srcIp srcPort : ℕ) (t : RtTransport) (d : RtDatagram) :
    RtTransport :=
  if t.se.status = .disconnected then t
  else if d.size < rudpTSha1Size then t
  else if d.size < 20 then
    if t.se.status = .connectSent ∧ srcIp = t.se.yourIp then
      { t with se := { t.se with yourPort := srcPort } }
    else t
  else
    match d.packet with
    | none => t
    | some p => rtHandlePacket tick srcPort t p

/-! ### Draining the receive buffer -/

/-- The comparison of a segment with a keep-alive magic. -/
def isMagic (data : SegmentData) (magic : Sha1Value) : Bool :=
  data.1.length == rudpTSha1Size && data.1 == magic.1

/-- A drained segment completes its number. -/
def rtComplete (t : RtTransport) (s : RtSegment) : RtTransport :=
  { t with
    se := { t.se with lastRecvCompleteSeq := s.seq }
    obs := { t.obs with drained := t.obs.drained ++ [s.data] } }

/-- One iteration of the drain loop on a segment that is next in order: a keep-alive
    request is answered when nothing is outstanding, a response is dropped, anything else
    goes to `recv_fifo`. `none` when `recv_fifo` is full. -/
def rtDrainOne (t : RtTransport) (s : RtSegment) : Option RtTransport :=
  if isMagic s.data t.se.magicReq then
    let t := if t.se.sendSegments.length = 0 then
        rtQueueSegment t .keepAlive t.se.magicResp.toSegmentData
      else t
    some (rtComplete t s)
  else if isMagic s.data t.se.magicResp then some (rtComplete t s)
  else
    match t.se.recvFifo.write s.data.1 with
    | none => none
    | some fifo =>
      some (rtComplete { t with
        se := { t.se with recvFifo := fifo }
        obs := { t.obs with appended := t.obs.appended ++ s.data.1 } } s)

/-- The drain loop: it looks at the segments in the order they are stored in and stops at
    the first one that is not next. The segments left over are returned. -/
def rtDrainLoop (cur : ℕ) : List RtSegment → RtTransport → List RtSegment × RtTransport
  | [], t => ([], t)
  | s :: rest, t =>
    if s.seq ≠ cur + 1 then (s :: rest, t)
    else
      match rtDrainOne t s with
      | none => (s :: rest, t)
      | some t' => rtDrainLoop (cur + 1) rest t'

/-- The drain block of `rt_interrupt`. -/
def rtDrain (t : RtTransport) : RtTransport :=
  let r := rtDrainLoop t.se.lastRecvCompleteSeq t.se.recvSegments t
  { r.2 with se := { r.2.se with recvSegments := r.1 } }

/-! ### The pumps -/

/-- `send` took `w` of the bytes offered, at most all of them. -/
def rtFlush (t : RtTransport) (w : ℕ) : RtTransport :=
  let w := min w (min t.se.recvFifo.size rudpTMaxSegmentSize)
  { t with
    se := { t.se with recvFifo := t.se.recvFifo.advance w }
    obs := { t.obs with appWritten := t.obs.appWritten ++ t.se.recvFifo.peek w } }

/-- `rt_pump_recv_to_pair`. -/
def rtPumpRecvToPair (tick : ℕ) : List SendResult → RtTransport → RtTransport
  | [], t => t
  | r :: rs, t =>
    if t.se.recvFifo.size ≥ 1 then
      match r with
      | .wouldBlock => t
      | .failed => rtSetDisconnected tick t false
      | .wrote 0 => t
      | .wrote w => rtPumpRecvToPair tick rs (rtFlush t w)
    else t

/-- A chunk read from the application. The result of `rt_fifo_write` is ignored. -/
def rtIngest (t : RtTransport) (c : RecvChunk) : RtTransport :=
  { t with
    se := { t.se with sendFifo := (t.se.sendFifo.write c.1).getD t.se.sendFifo }
    obs := { t.obs with appRead := t.obs.appRead ++ c.1 } }

/-- `rt_pump_pair_to_send`. -/
def rtPumpPairToSend (tick : ℕ) : List RecvResult → RtTransport → RtTransport
  | [], t => t
  | r :: rs, t =>
    if t.se.sendFifo.size ≥ rudpTMaxFifoSize then t
    else
      match r with
      | .wouldBlock => t
      | .failed => rtSetDisconnected tick t false
      | .eof => rtSetDisconnected tick t false
      | .chunk c => rtPumpPairToSend tick rs (rtIngest t c)

/-- The first outstanding number, 0 when there is none. -/
def seqMin (t : RtTransport) : ℕ := (t.se.sendSegments.head?.map RtSegment.seq).getD 0

/-- The next segment to cut: up to `RUDP_T_MAX_SEGMENT_SIZE` bytes from the front. -/
def rtNextChunk (t : RtTransport) : SegmentData :=
  ⟨t.se.sendFifo.peek (min t.se.sendFifo.size rudpTMaxSegmentSize), by
    rw [RingBuffer.peek_eq_take, List.length_take]
    exact le_trans (Nat.min_le_left _ _) (Nat.min_le_right _ _)⟩

/-- One segment cut from the front of `send_fifo`. -/
def rtCutSegment (t : RtTransport) : RtTransport :=
  let t' := rtQueueSegment t .stream (rtNextChunk t)
  { t' with se := { t'.se with
      sendFifo := t'.se.sendFifo.advance (min t.se.sendFifo.size rudpTMaxSegmentSize) } }

/-- `rt_segment_send_fifo`, with the number of iterations bounded: every one of them
    takes at least one byte from `send_fifo`. -/
def rtSegmentLoop : ℕ → RtTransport → RtTransport
  | 0, t => t
  | fuel + 1, t =>
    if seqMin t ≠ 0 ∧ seqMin t + rudpTMaxNumAck - 1 < t.se.nextSendSeq then t
    else if t.se.sendFifo.size = 0 then t
    else rtSegmentLoop fuel (rtCutSegment t)

/-- `rt_segment_send_fifo`. -/
def rtSegmentSendFifo (t : RtTransport) : RtTransport := rtSegmentLoop t.se.sendFifo.size t

/-! ### The periodic processing -/

/-- `rt_send_icmp_echo` and the time of the next one. -/
def rtIcmpEcho (io : RtIo) (t : RtTransport) : RtTransport :=
  let t := rtSendUdp io.tick t .icmpEcho
  { t with se := { t.se with
      nextIcmpEchoTick := io.tick + rudpTIcmpEchoIntervalMin +
        io.echoRand % (rudpTIcmpEchoIntervalMax - rudpTIcmpEchoIntervalMin) } }

/-- The echo that keeps the NAT mapping alive in ICMP mode. -/
def rtIcmpKeepalive (io : RtIo) (t : RtTransport) : RtTransport :=
  if t.transportMode = .icmp ∧ io.tick ≥ t.se.nextIcmpEchoTick then rtIcmpEcho io t else t

/-- The 39-byte connection request, every `RUDP_T_RESEND_TIMER`. -/
def rtConnectRequest (io : RtIo) (t : RtTransport) : RtTransport :=
  if t.se.lastSentTick = 0 ∨ sub64 io.tick t.se.lastSentTick ≥ rudpTResendTimer then
    let t :=
      if t.transportMode = .icmp then
        { rtSendUdp io.tick (rtIcmpEcho io t) .request with icmpType := 7 }
      else rtSendUdp io.tick t .request
    { t with se := { t.se with lastSentTick := io.tick } }
  else t

/-- The time limit for connecting. -/
def rtConnectTimeout (io : RtIo) (t : RtTransport) : RtTransport :=
  if sub64 io.tick t.se.createdTick ≥ t.connectTimeoutMs then
    rtSetDisconnected io.tick { t with errorCode := .timeout } false
  else t

/-- The keep-alive request, when nothing is outstanding. -/
def rtKeepalive (io : RtIo) (t : RtTransport) : RtTransport :=
  if t.se.lastSentTick = 0 ∨ io.tick ≥ t.se.lastSentTick + t.se.nextKeepaliveInterval then
    let t := if t.se.sendSegments.length = 0 then
        rtQueueSegment t .keepAlive t.se.magicReq.toSegmentData
      else t
    { t with se := { t.se with
        nextKeepaliveInterval := rudpTKeepaliveMin +
          io.keepaliveRand % (rudpTKeepaliveMax - rudpTKeepaliveMin) } }
  else t

/-- The segment is inside the window and its time has come. -/
def rtDue (io : RtIo) (t : RtTransport) (s : RtSegment) : Bool :=
  !(s.seq > seqMin t + rudpTMaxNumAck - 1) && !(s.nextSendTick ≠ 0 && io.tick < s.nextSendTick)

/-- The back-off interval of a segment, in 32-bit arithmetic. -/
def rtInterval (t : RtTransport) (s : RtSegment) : ℕ :=
  let shift := if s.numSent < 10 then s.numSent else 10
  let interval :=
    if t.se.currentRtt ≠ 0 then (t.se.currentRtt * 120 % 2 ^ 32 / 100 * 2 ^ shift) % 2 ^ 32
    else (rudpTResendTimer * 2 ^ shift) % 2 ^ 32
  if interval > rudpTResendTimerMax then rudpTResendTimerMax else interval

/-- Retransmission: every segment that is due is sent, in the order of the queue. -/
def rtRetransmit (io : RtIo) (t : RtTransport) : RtTransport :=
  let segs := t.se.sendSegments
  let t' := (segs.filter (rtDue io t)).foldl
    (fun t s => rtSendSegmentNow io.tick t s.seq s.data.1) t
  { t' with se := { t'.se with
      sendSegments := segs.map (fun s =>
        if rtDue io t s then
          { s with numSent := s.numSent + 1, nextSendTick := io.tick + rtInterval t s }
        else s) } }

/-- The pending acknowledgements. One packet takes all of them, so the source's `while`
    runs at most once. -/
def rtSendAcks (io : RtIo) (t : RtTransport) : RtTransport :=
  if t.se.replyAcks.length ≥ 1 then rtSendSegmentNow io.tick t t.se.nextSendSeq [] else t

/-- The established part of `rt_interrupt` after the drain block. -/
def rtPump (io : RtIo) (t : RtTransport) : RtTransport :=
  rtSegmentSendFifo (rtPumpPairToSend io.tick io.recvs (rtPumpRecvToPair io.tick io.sends t))

/-- `rt_interrupt`. -/
def rtInterrupt (io : RtIo) (t : RtTransport) : RtTransport :=
  match t.se.status with
  | .connectSent => rtIcmpKeepalive io (rtConnectTimeout io (rtConnectRequest io t))
  | .disconnected => t
  | .established =>
    if io.tick ≥ t.se.latestRecvMyTick + rudpTTimeoutMs then
      rtSetDisconnected io.tick { t with errorCode := .timeout } false
    else
      rtSendAcks io (rtRetransmit io (rtIcmpKeepalive io (rtKeepalive io
        (rtPump io (rtDrain t)))))

/-! ### Connecting and the worker -/

/-- `rt_w64`. -/
def rtW64 (v : ℕ) : List UInt8 :=
  [UInt8.ofNat (v >>> 56), UInt8.ofNat (v >>> 48), UInt8.ofNat (v >>> 40), UInt8.ofNat (v >>> 32),
    UInt8.ofNat (v >>> 24), UInt8.ofNat (v >>> 16), UInt8.ofNat (v >>> 8), UInt8.ofNat v]

/-- The parameters of `rudp_transport_connect` and the random values it draws: the keys
    enter through the magics derived from them. -/
structure RtConnect where
  transportMode : RtMode
  connectTimeoutMs : ℕ
  serverIp : ℕ
  serverPort : ℕ
  tick : ℕ
  keepaliveRand : ℕ
  magicReq : Sha1Value
  magicResp : Sha1Value
  magicDisconnect : ℕ

/-- An empty FIFO of `RUDP_T_MAX_FIFO_SIZE` bytes. -/
def rtFifoInit : RingBuffer UInt8 := RingBuffer.empty 0 rudpTMaxFifoSize (by decide)

/-- The session `rudp_transport_connect` starts the worker on: the first payload is the
    disconnect magic, already in `send_fifo`. -/
def rtInit (c : RtConnect) : RtTransport where
  transportMode := c.transportMode
  icmpType := 0
  connectTimeoutMs := if c.connectTimeoutMs ≠ 0 then c.connectTimeoutMs else rudpTTimeoutMs
  errorCode := .unknown
  resultReady := false
  resultOk := false
  workerShut := false
  se :=
    { status := .connectSent
      magicReq := c.magicReq
      magicResp := c.magicResp
      magicDisconnect := c.magicDisconnect
      nextSendSeq := 1
      lastRecvCompleteSeq := 0
      yourTick := 0
      latestRecvMyTick := c.tick
      latestRecvMyTick2 := 0
      currentRtt := 0
      lastSentTick := 0
      nextKeepaliveInterval := rudpTKeepaliveMin +
        c.keepaliveRand % (rudpTKeepaliveMax - rudpTKeepaliveMin)
      createdTick := c.tick
      nextIcmpEchoTick := 0
      yourIp := c.serverIp
      yourPort := c.serverPort
      sendSegments := []
      recvSegments := []
      replyAcks := []
      sendFifo := (rtFifoInit.write (rtW64 c.magicDisconnect)).getD rtFifoInit
      recvFifo := rtFifoInit }
  obs := ⟨[], [], [], [], [], []⟩

/-- A session at its start, in the given status: the accepting side has its session
    established by the connection request. -/
def rtStart (c : RtConnect) (status : RtStatus) : RtTransport :=
  { rtInit c with se := { (rtInit c).se with status := status } }

/-- One action of the worker thread: a datagram arrives, the periodic processing runs, or
    the worker ends. -/
inductive RtAction
  | datagram (tick srcIp srcPort : ℕ) (d : RtDatagram)
  | interrupt (io : RtIo)
  | halt (tick : ℕ)

/-- The worker thread, one action at a time. -/
def rtStep (t : RtTransport) : RtAction → RtTransport
  | .datagram tick srcIp srcPort d => rtHandleUdpPacket tick srcIp srcPort t d
  | .interrupt io => rtInterrupt io t
  | .halt tick => rtSetDisconnected tick t false

/-- A connection whose magics are twenty times 7 and twenty times 8. -/
def sampleConnect : RtConnect where
  transportMode := .udp
  connectTimeoutMs := 0
  serverIp := 1
  serverPort := 2
  tick := 1
  keepaliveRand := 0
  magicReq := ⟨List.replicate 20 7, rfl⟩
  magicResp := ⟨List.replicate 20 8, rfl⟩
  magicDisconnect := 2 ^ 64 - 2 ^ 32

/-- The answers of one interrupt in which the application has written `chunks`. -/
def ioReading (tick : ℕ) (chunks : List RecvChunk) : RtIo where
  tick := tick
  echoRand := 0
  keepaliveRand := 0
  sends := []
  recvs := chunks.map .chunk

end SoftEther.Transport
