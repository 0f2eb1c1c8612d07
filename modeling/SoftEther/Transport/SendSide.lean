import SoftEther.Transport.Bytes
import SoftEther.Transport.Window

namespace SoftEther.Transport

open Lib Lib.SlidingWindow

/-!
# Bytes from the application to the segments

`rt_pump_pair_to_send` reads a chunk whenever `send_fifo` is not completely full and
ignores the result of `rt_fifo_write`.

* `Conserved` — the bytes read are the bytes cut into segments and the ones waiting;
* `Lost` — more bytes are read than are cut and waiting; this is never made good;
* `PumpFits` — every chunk the pump reads fits the free space at that moment;
* `rtStep_conserved_iff` — one action conserves the bytes exactly when it fits.
-/

/-! ### Conservation and loss -/

/-- The prefix and the bytes read from the application are the bytes cut into segments
    followed by the bytes in `send_fifo`. -/
def Conserved (md : List UInt8) (t : RtTransport) : Prop :=
  md ++ t.obs.appRead = concat t.obs.streamPayloads ++ t.se.sendFifo.contents

/-- Fewer bytes are cut or waiting than were read. -/
def Lost (md : List UInt8) (t : RtTransport) : Prop :=
  (concat t.obs.streamPayloads).length + t.se.sendFifo.size < md.length + t.obs.appRead.length

variable {t : RtTransport} {md : List UInt8}

/-- Both speak about the outbound bytes only. -/
theorem Conserved.congr {t' : RtTransport} (h : t'.bytes.2 = t.bytes.2) :
    Conserved md t' ↔ Conserved md t := by
  have h1 : t'.obs.appRead = t.obs.appRead := congrArg Outbound.appRead h
  have h2 : t'.obs.streamPayloads = t.obs.streamPayloads := congrArg Outbound.streamed h
  have h3 : t'.se.sendFifo = t.se.sendFifo := congrArg Outbound.sendFifo h
  rw [Conserved, Conserved, h1, h2, h3]

theorem Lost.congr {t' : RtTransport} (h : t'.bytes.2 = t.bytes.2) : Lost md t' ↔ Lost md t := by
  have h1 : t'.obs.appRead = t.obs.appRead := congrArg Outbound.appRead h
  have h2 : t'.obs.streamPayloads = t.obs.streamPayloads := congrArg Outbound.streamed h
  have h3 : t'.se.sendFifo = t.se.sendFifo := congrArg Outbound.sendFifo h
  rw [Lost, Lost, h1, h2, h3]

/-- Lost bytes are not conserved. -/
theorem Lost.not_conserved (h : Lost md t) : ¬ Conserved md t := by
  intro hc
  have hlen := congrArg List.length hc
  rw [List.length_append, List.length_append, RingBuffer.contents_length] at hlen
  rw [Lost] at h
  omega

/-! ### The pump -/

/-- The chunks fit when they are read one after the other, starting with `size` bytes in
    the FIFO; the pump stops at a full FIFO and at any other answer of `recv`. -/
def ChunksFit : ℕ → List RecvResult → Prop
  | _, [] => True
  | size, .chunk c :: rs =>
    size < rudpTMaxFifoSize →
      size + c.1.length ≤ rudpTMaxFifoSize ∧ ChunksFit (size + c.1.length) rs
  | _, .wouldBlock :: _ => True
  | _, .eof :: _ => True
  | _, .failed :: _ => True

/-- A chunk that fits is appended to the FIFO. -/
theorem rtIngest_fits {c : RecvChunk} (hcap : t.se.sendFifo.cap = rudpTMaxFifoSize)
    (hfit : t.se.sendFifo.size + c.1.length ≤ rudpTMaxFifoSize) (h : Conserved md t) :
    Conserved md (rtIngest t c) ∧ (rtIngest t c).se.sendFifo.cap = rudpTMaxFifoSize ∧
      (rtIngest t c).se.sendFifo.size = t.se.sendFifo.size + c.1.length := by
  have havail := t.se.sendFifo.avail_add_size
  obtain ⟨fifo, hw⟩ := t.se.sendFifo.write_fits c.1 (by omega)
  obtain ⟨hcont, hcap', -⟩ := RingBuffer.write_eq_some hw
  have hfifo : (rtIngest t c).se.sendFifo = fifo := by
    show (t.se.sendFifo.write c.1).getD t.se.sendFifo = fifo
    rw [hw]
    rfl
  rw [hfifo]
  refine ⟨?_, by rw [hcap', hcap], RingBuffer.write_size hw⟩
  show md ++ (t.obs.appRead ++ c.1) =
    concat t.obs.streamPayloads ++ (rtIngest t c).se.sendFifo.contents
  rw [hfifo, hcont, ← List.append_assoc, ← List.append_assoc, show _ = _ from h]

/-- A chunk that does not fit is gone. -/
theorem rtIngest_lost {c : RecvChunk} (hcap : t.se.sendFifo.cap = rudpTMaxFifoSize)
    (hfit : ¬ t.se.sendFifo.size + c.1.length ≤ rudpTMaxFifoSize) (h : Conserved md t) :
    Lost md (rtIngest t c) := by
  have havail := t.se.sendFifo.avail_add_size
  have hnone : t.se.sendFifo.write c.1 = none := by
    rw [RingBuffer.write_eq_none_iff]
    omega
  have hlen := congrArg List.length (show _ = _ from h)
  rw [List.length_append, List.length_append, RingBuffer.contents_length] at hlen
  have hfifo : (rtIngest t c).se.sendFifo = t.se.sendFifo := by
    show (t.se.sendFifo.write c.1).getD t.se.sendFifo = t.se.sendFifo
    rw [hnone]
    rfl
  show (concat t.obs.streamPayloads).length + (rtIngest t c).se.sendFifo.size <
    md.length + (t.obs.appRead ++ c.1).length
  rw [hfifo, List.length_append]
  have hc := c.2.1
  omega

/-- Reading more does not bring lost bytes back. -/
theorem Lost.ingest (c : RecvChunk) (h : Lost md t) : Lost md (rtIngest t c) := by
  have hsize : (rtIngest t c).se.sendFifo.size ≤ t.se.sendFifo.size + c.1.length := by
    show ((t.se.sendFifo.write c.1).getD t.se.sendFifo).size ≤ _
    cases hw : t.se.sendFifo.write c.1 with
    | none => exact Nat.le_add_right _ _
    | some fifo => exact Nat.le_of_eq (RingBuffer.write_size hw)
  rw [Lost] at h ⊢
  show (concat t.obs.streamPayloads).length + (rtIngest t c).se.sendFifo.size <
    md.length + (t.obs.appRead ++ c.1).length
  rw [List.length_append]
  omega

theorem Lost.pump (tick : ℕ) (rs : List RecvResult) (h : Lost md t) :
    Lost md (rtPumpPairToSend tick rs t) := by
  induction rs generalizing t with
  | nil => exact h
  | cons r rs ih =>
    unfold rtPumpPairToSend
    split
    · exact h
    · cases r with
      | wouldBlock => exact h
      | failed => exact (Lost.congr (by rw [rtSetDisconnected_bytes])).mpr h
      | eof => exact (Lost.congr (by rw [rtSetDisconnected_bytes])).mpr h
      | chunk c => exact ih (h.ingest c)

/-- **The pump** conserves the bytes when every chunk fits, and loses some otherwise. -/
theorem rtPumpPairToSend_conserved (tick : ℕ) (rs : List RecvResult)
    (hcap : t.se.sendFifo.cap = rudpTMaxFifoSize) (h : Conserved md t) :
    (ChunksFit t.se.sendFifo.size rs → Conserved md (rtPumpPairToSend tick rs t)) ∧
      (¬ ChunksFit t.se.sendFifo.size rs → Lost md (rtPumpPairToSend tick rs t)) := by
  induction rs generalizing t with
  | nil => exact ⟨fun _ => h, fun hn => absurd trivial hn⟩
  | cons r rs ih =>
    unfold rtPumpPairToSend
    split
    · rename_i hfull
      refine ⟨fun _ => h, fun hn => absurd ?_ hn⟩
      cases r with
      | chunk c => exact fun hlt => absurd hlt (Nat.not_lt.mpr hfull)
      | wouldBlock => trivial
      | eof => trivial
      | failed => trivial
    · rename_i hroom
      cases r with
      | wouldBlock => exact ⟨fun _ => h, fun hn => absurd trivial hn⟩
      | failed =>
        exact ⟨fun _ => (Conserved.congr (by rw [rtSetDisconnected_bytes])).mpr h,
          fun hn => absurd trivial hn⟩
      | eof =>
        exact ⟨fun _ => (Conserved.congr (by rw [rtSetDisconnected_bytes])).mpr h,
          fun hn => absurd trivial hn⟩
      | chunk c =>
        dsimp only
        by_cases hfit : t.se.sendFifo.size + c.1.length ≤ rudpTMaxFifoSize
        · obtain ⟨hcons, hcap', hsize⟩ := rtIngest_fits hcap hfit h
          obtain ⟨hyes, hno⟩ := ih hcap' hcons
          rw [hsize] at hyes hno
          refine ⟨fun hc => hyes (hc (Nat.lt_of_not_le hroom)).2, fun hn => hno ?_⟩
          exact fun hc => hn (fun _ => ⟨hfit, hc⟩)
        · -- the chunk is dropped; whatever is read later, its bytes stay lost
          refine ⟨fun hc => absurd (hc (Nat.lt_of_not_le hroom)).1 hfit, fun _ => ?_⟩
          exact Lost.pump tick rs (rtIngest_lost hcap hfit h)

/-! ### The segmenting loop -/

/-- Cutting a segment with room in the queue moves the bytes from the FIFO to the queue. -/
theorem rtCutSegment_conserved (h : Conserved md t)
    (hroom : t.se.sendSegments.length < rudpTMaxNumAck) : Conserved md (rtCutSegment t) := by
  have hqueue : rtQueueSegment t .stream (rtNextChunk t) = _ := if_neg (Nat.not_le.mpr hroom)
  unfold rtCutSegment
  rw [hqueue]
  show md ++ t.obs.appRead =
    concat (((t.obs.queued ++ [(SegmentKind.stream, rtNextChunk t)]).filter
      (fun q => q.1 = .stream)).map Prod.snd) ++
    (t.se.sendFifo.advance (min t.se.sendFifo.size rudpTMaxSegmentSize)).contents
  have hchunk : (rtNextChunk t).1 =
      t.se.sendFifo.contents.take (min t.se.sendFifo.size rudpTMaxSegmentSize) :=
    t.se.sendFifo.peek_eq_take _
  have hsplit : concat (((t.obs.queued ++ [(SegmentKind.stream, rtNextChunk t)]).filter
      (fun q => q.1 = .stream)).map Prod.snd) =
      concat t.obs.streamPayloads ++ (rtNextChunk t).1 := by
    simp [concat, RtObs.streamPayloads]
  rw [hsplit, hchunk, RingBuffer.contents_advance, List.append_assoc, List.take_append_drop]
  exact h

/-- Cutting a segment does not bring lost bytes back, whether the queue has room or not. -/
theorem Lost.cut (h : Lost md t) : Lost md (rtCutSegment t) := by
  set k := min t.se.sendFifo.size rudpTMaxSegmentSize with hk
  have hchunk : (rtNextChunk t).1.length = k := by
    have hpeek : (rtNextChunk t).1 = t.se.sendFifo.contents.take k :=
      t.se.sendFifo.peek_eq_take _
    rw [hpeek, List.length_take, RingBuffer.contents_length]
    omega
  have hfifo : (rtCutSegment t).se.sendFifo = t.se.sendFifo.advance k := by
    unfold rtCutSegment rtQueueSegment
    split <;> rfl
  have happ : (rtCutSegment t).obs.appRead = t.obs.appRead := by
    unfold rtCutSegment rtQueueSegment
    split <;> rfl
  have hcut : (concat (rtCutSegment t).obs.streamPayloads).length ≤
      (concat t.obs.streamPayloads).length + k := by
    unfold rtCutSegment rtQueueSegment
    split
    · exact Nat.le_add_right _ _
    · simp [concat, RtObs.streamPayloads, hchunk]
  rw [Lost] at h ⊢
  rw [hfifo, happ, RingBuffer.advance_size]
  omega

/-- **The segmenting loop** conserves the bytes: while the window is open the queue has
    room, so no segment is dropped. -/
theorem rtSegmentLoop_conserved (fuel : ℕ) (hok : SendOk rudpTMaxNumAck t.endpoint)
    (h : Conserved md t) : Conserved md (rtSegmentLoop fuel t) := by
  induction fuel generalizing t with
  | zero => exact h
  | succ fuel ih =>
    unfold rtSegmentLoop
    split
    · exact h
    · rename_i hwin
      split
      · exact h
      · have hopen := open_of_seqMin hwin (SendOk.head_pos hok)
        have hcut := rtCutSegment_steps (P := fun _ => True) hopen
        have hroom : t.endpoint.outstanding.length < rudpTMaxNumAck := by
          refine hok.length_lt (by decide) ?_
          intro p hp
          simp only [RtTransport.endpoint, List.head?_map, Option.mem_map] at hp
          obtain ⟨s, hs, rfl⟩ := hp
          exact hopen s hs
        have hlen : t.se.sendSegments.length < rudpTMaxNumAck := by
          have := hroom
          simpa [RtTransport.endpoint] using this
        exact ih (sendOk_of_steps hok hcut) (rtCutSegment_conserved h hlen)

theorem Lost.segment (fuel : ℕ) (h : Lost md t) : Lost md (rtSegmentLoop fuel t) := by
  induction fuel generalizing t with
  | zero => exact h
  | succ fuel ih =>
    unfold rtSegmentLoop
    split
    · exact h
    · split
      · exact h
      · exact ih h.cut

/-! ### One action -/

/-- What the send side of a running session keeps: the queue in order, and a FIFO of the
    full capacity. -/
structure SendReady (t : RtTransport) : Prop where
  queue : SendOk rudpTMaxNumAck t.endpoint
  cap : t.se.sendFifo.cap = rudpTMaxFifoSize

/-- The capacity of `send_fifo` never changes. -/
theorem rtPump_cap (io : RtIo) (t : RtTransport) :
    (rtPump io t).se.sendFifo.cap = t.se.sendFifo.cap := by
  have hset : ∀ u : RtTransport, (rtSetDisconnected io.tick u false).se.sendFifo =
      u.se.sendFifo := fun u => congrArg (fun b => b.2.sendFifo) (rtSetDisconnected_bytes _ u _)
  have hpump : ∀ (rs : List RecvResult) (u : RtTransport),
      (rtPumpPairToSend io.tick rs u).se.sendFifo.cap = u.se.sendFifo.cap := by
    intro rs
    induction rs with
    | nil => exact fun u => rfl
    | cons r rs ih =>
      intro u
      unfold rtPumpPairToSend
      split
      · rfl
      · cases r with
        | wouldBlock => rfl
        | failed => exact congrArg RingBuffer.cap (hset u)
        | eof => exact congrArg RingBuffer.cap (hset u)
        | chunk c =>
          refine (ih (rtIngest u c)).trans ?_
          show ((u.se.sendFifo.write c.1).getD u.se.sendFifo).cap = _
          cases hw : u.se.sendFifo.write c.1 with
          | none => rfl
          | some fifo => exact (RingBuffer.write_eq_some hw).2.1
  have hloop : ∀ (fuel : ℕ) (u : RtTransport),
      (rtSegmentLoop fuel u).se.sendFifo.cap = u.se.sendFifo.cap := by
    intro fuel
    induction fuel with
    | zero => exact fun u => rfl
    | succ fuel ih =>
      intro u
      unfold rtSegmentLoop
      split
      · rfl
      · split
        · rfl
        · refine (ih (rtCutSegment u)).trans ?_
          unfold rtCutSegment rtQueueSegment
          split <;> rfl
  have hrecv : (rtPumpRecvToPair io.tick io.sends t).se.sendFifo = t.se.sendFifo :=
    congrArg (fun b => b.2.sendFifo) (rtPumpRecvToPair_bytes io.tick io.sends t)
  unfold rtPump rtSegmentSendFifo
  rw [hloop, hpump, hrecv]

/-- The session's bytes after an interrupt are those after its pumps. -/
private theorem rtInterrupt_sendFifo_cap (io : RtIo) (t : RtTransport) :
    (rtInterrupt io t).se.sendFifo.cap = t.se.sendFifo.cap := by
  have hview : ∀ {u v : RtTransport}, u.bytes.2 = v.bytes.2 →
      u.se.sendFifo.cap = v.se.sendFifo.cap :=
    fun h => congrArg (fun o : Outbound => o.sendFifo.cap) h
  by_cases hst : t.se.status = .established
  · by_cases hlive : io.tick ≥ t.se.latestRecvMyTick + rudpTTimeoutMs
    · exact hview (congrArg Prod.snd (rtInterrupt_idle_bytes io (Or.inr hlive)))
    · rw [hview (congrArg Prod.snd (rtInterrupt_established_bytes io hst hlive)), rtPump_cap,
        hview (rtDrain_outbound t)]
  · exact hview (congrArg Prod.snd (rtInterrupt_idle_bytes io (Or.inl hst)))

/-- **Step lemma.** Any datagram, any interrupt and the end of the worker keep the send
    side ready. -/
theorem rtStep_sendReady (h : SendReady t) (a : RtAction) : SendReady (rtStep t a) := by
  have hcap : (rtStep t a).se.sendFifo.cap = t.se.sendFifo.cap := by
    cases a with
    | datagram tick srcIp srcPort d =>
      exact congrArg (fun b => b.2.sendFifo.cap) (rtHandleUdpPacket_bytes tick srcIp srcPort t d)
    | interrupt io => exact rtInterrupt_sendFifo_cap io t
    | halt tick => exact congrArg (fun b => b.2.sendFifo.cap) (rtSetDisconnected_bytes tick t false)
  refine ⟨?_, by rw [hcap, h.cap]⟩
  cases a with
  | datagram tick srcIp srcPort d =>
    exact sendOk_of_steps h.queue
      (rtHandleUdpPacket_steps (P := fun _ => True) tick srcIp srcPort t d (fun _ _ => trivial))
  | interrupt io =>
    exact sendOk_of_steps h.queue (rtInterrupt_steps (P := fun _ => True) io h.queue)
  | halt tick =>
    exact sendOk_of_steps h.queue (rtSetDisconnected_steps (P := fun _ => True) tick t false)

/-- The chunks this action reads from the application fit. Only an interrupt of an
    established session that has not timed out reads any. -/
def PumpFits (t : RtTransport) : RtAction → Prop
  | .interrupt io =>
    t.se.status = .established → ¬ io.tick ≥ t.se.latestRecvMyTick + rudpTTimeoutMs →
      ChunksFit t.se.sendFifo.size io.recvs
  | .datagram _ _ _ _ => True
  | .halt _ => True

/-- **When an action conserves the bytes.** -/
theorem rtStep_conserved_iff (hr : SendReady t) (h : Conserved md t) (a : RtAction) :
    Conserved md (rtStep t a) ↔ PumpFits t a := by
  cases a with
  | datagram tick srcIp srcPort d =>
    refine iff_of_true ?_ trivial
    exact (Conserved.congr
      (congrArg Prod.snd (rtHandleUdpPacket_bytes tick srcIp srcPort t d))).mpr h
  | halt tick =>
    refine iff_of_true ?_ trivial
    exact (Conserved.congr (congrArg Prod.snd (rtSetDisconnected_bytes tick t false))).mpr h
  | interrupt io =>
    by_cases hpump : t.se.status = .established ∧
        ¬ io.tick ≥ t.se.latestRecvMyTick + rudpTTimeoutMs
    · obtain ⟨hst, hlive⟩ := hpump
      -- the state in which the pump reads: the drain and the other pump move nothing out
      set u := rtPumpRecvToPair io.tick io.sends (rtDrain t) with hu
      have hview : u.bytes.2 = t.bytes.2 := by
        rw [hu, rtPumpRecvToPair_bytes, rtDrain_outbound]
      have hfifo : u.se.sendFifo = t.se.sendFifo := congrArg Outbound.sendFifo hview
      have hcons : Conserved md u := (Conserved.congr hview).mpr h
      have hqueue : SendOk rudpTMaxNumAck (rtPumpPairToSend io.tick io.recvs u).endpoint :=
        sendOk_of_steps (P := fun _ => True) hr.queue
          (((rtDrain_steps t).trans (rtPumpRecvToPair_steps io.tick io.sends _)).trans
            (rtPumpPairToSend_steps io.tick io.recvs u))
      obtain ⟨hyes, hno⟩ := rtPumpPairToSend_conserved io.tick io.recvs
        (by rw [hfifo]; exact hr.cap) hcons
      rw [hfifo] at hyes hno
      have hend : Conserved md (rtStep t (.interrupt io)) ↔
          Conserved md (rtSegmentSendFifo (rtPumpPairToSend io.tick io.recvs u)) :=
        Conserved.congr (congrArg Prod.snd (rtInterrupt_established_bytes io hst hlive))
      rw [hend]
      constructor
      · intro hc _ _
        by_contra hbad
        exact (Lost.segment _ (hno hbad)).not_conserved hc
      · intro hfits
        exact rtSegmentLoop_conserved _ hqueue (hyes (hfits hst hlive))
    · rw [not_and_or, not_not] at hpump
      have hidle : Conserved md (rtStep t (.interrupt io)) :=
        (Conserved.congr (congrArg Prod.snd (rtInterrupt_idle_bytes io hpump))).mpr h
      refine iff_of_true hidle ?_
      intro hst hlive
      rcases hpump with hp | hp
      · exact absurd hst hp
      · exact absurd hp hlive

theorem rtInit_sendReady (c : RtConnect) : SendReady (rtInit c) where
  queue := ⟨rfl, List.Pairwise.nil, fun _ hp => absurd hp List.not_mem_nil, by simp [rtInit,
    RtTransport.endpoint]⟩
  cap := rfl

/-- The disconnect magic is in `send_fifo` when the worker starts. -/
theorem rtInit_conserved (c : RtConnect) : Conserved (rtW64 c.magicDisconnect) (rtInit c) := by
  have hfit : (rtW64 c.magicDisconnect).length ≤ rtFifoInit.avail := by
    show 8 ≤ rtFifoInit.avail
    decide
  obtain ⟨fifo, hw⟩ := rtFifoInit.write_fits _ hfit
  have hfifo : (rtInit c).se.sendFifo = fifo := by
    show (rtFifoInit.write (rtW64 c.magicDisconnect)).getD rtFifoInit = fifo
    rw [hw]
    rfl
  have hcont : fifo.contents = rtFifoInit.contents ++ rtW64 c.magicDisconnect :=
    (RingBuffer.write_eq_some hw).1
  rw [Conserved, hfifo, hcont]
  show rtW64 c.magicDisconnect ++ [] = [] ++ (rtFifoInit.contents ++ rtW64 c.magicDisconnect)
  rw [rtFifoInit, RingBuffer.contents_empty, List.append_nil]
  rfl

/-! ### Runs -/

/-- **Send-side conservation.** From the start of a session, under any datagrams,
    interrupts and answers of the operating system, the bytes read from the application
    are the ones cut and waiting at every point of the run exactly when every chunk read
    fits. -/
theorem send_conserved_iff (c : RtConnect) (as : List RtAction) :
    Always rtStep (Conserved (rtW64 c.magicDisconnect)) (rtInit c) as ↔
      Along rtStep PumpFits (rtInit c) as :=
  always_iff_along (I := SendReady) (fun _ a h => rtStep_sendReady h a)
    (fun _ a hr h => rtStep_conserved_iff hr h a) (rtInit_sendReady c) (rtInit_conserved c) as

/-- Full chunks one after the other, to a FIFO whose size is not a multiple of theirs:
    the last one before the FIFO is full does not fit. -/
theorem not_chunksFit_replicate (x : RecvChunk) (hx : x.1.length = rudpTMaxSegmentSize) (n : ℕ)
    {size : ℕ} (hmod : size % rudpTMaxSegmentSize ≠ 0) (hlt : size < rudpTMaxFifoSize)
    (hover : rudpTMaxFifoSize < size + rudpTMaxSegmentSize * n) :
    ¬ ChunksFit size (List.replicate n (.chunk x)) := by
  have hseg : rudpTMaxSegmentSize = 512 := rfl
  have hmax : rudpTMaxFifoSize = 524288 := rfl
  have hx512 : x.1.length = 512 := hx
  rw [hseg] at hmod hover
  induction n generalizing size with
  | zero => omega
  | succ n ih =>
    rw [List.replicate_succ]
    intro hfit
    obtain ⟨hle, hrest⟩ := hfit hlt
    rw [hx512] at hle hrest
    exact ih (by omega) (by omega) (by omega) hrest

/-- The first valid segment of the server: it carries no payload. -/
def establishing : RtDatagram where
  size := 100
  packet := some
    { myTick := 1
      yourTick := 1
      maxAck := 0
      acks := []
      seq := 1
      payload := []
      acks_le := by decide }

/-- A chunk that fills the buffer of `recv`. -/
def fullChunk : RecvChunk :=
  ⟨List.replicate rudpTMaxSegmentSize 0, by rw [List.length_replicate]; decide⟩

/-- An application that writes 1024 full chunks while the worker runs its pump once. -/
def fillingRun : List RtAction :=
  [.datagram 1 1 2 establishing,
   .interrupt (ioReading 2 (List.replicate 1024 fullChunk))]

/-- The last of the chunks is read and dropped. -/
theorem send_conserved_fails :
    ¬ Always rtStep (Conserved (rtW64 sampleConnect.magicDisconnect)) (rtInit sampleConnect)
      fillingRun := by
  intro hall
  obtain ⟨-, -, hend⟩ := hall
  set t := rtStep (rtInit sampleConnect) (.datagram 1 1 2 establishing) with ht
  have hready : SendReady t := rtStep_sendReady (rtInit_sendReady sampleConnect) _
  have hcons : Conserved (rtW64 sampleConnect.magicDisconnect) t :=
    (rtStep_conserved_iff (rtInit_sendReady sampleConnect) (rtInit_conserved sampleConnect)
      (.datagram 1 1 2 establishing)).mpr trivial
  have hfits := (rtStep_conserved_iff hready hcons _).mp hend rfl (by decide)
  have hrecvs : (ioReading 2 (List.replicate 1024 fullChunk)).recvs =
      List.replicate 1024 (.chunk fullChunk) := List.map_replicate
  rw [hrecvs] at hfits
  exact not_chunksFit_replicate fullChunk List.length_replicate 1024
    (by decide) (by decide) (by decide) hfits

end SoftEther.Transport
