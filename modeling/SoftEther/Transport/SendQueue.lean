import SoftEther.Transport.SendSide

namespace SoftEther.Transport

open Lib Lib.SlidingWindow

/-!
# The send queue never overflows

`rt_queue_segment` returns without a word when 64 segments are outstanding.  It is called
from three places: the drain loop and the keep-alive call it on an empty queue, the
segmenting loop under a window test written against the first outstanding number.

* `SendQueueOk` — what holds of `send_segments` at any time;
* `queueCalls` — the calls of `rt_queue_segment` during one action, in order;
* `rtStep_queued` — one action queues exactly what it calls `rt_queue_segment` with;
* `sendQueue_run` — both, in every reachable state.
-/

/-! ### The invariant -/

/-- **The representation invariant of `send_segments`.** -/
structure SendQueueOk (t : RtTransport) : Prop where
  ascending : (t.se.sendSegments.map RtSegment.seq).Pairwise (· < ·)
  below : ∀ s ∈ t.se.sendSegments, s.seq < t.se.nextSendSeq
  count : t.se.sendSegments.length ≤ rudpTMaxNumAck
  window : ∀ s ∈ t.se.sendSegments.head?, t.se.nextSendSeq ≤ s.seq + rudpTMaxNumAck

/-- Ascending numbers below the next one, inside a window from the first one: there are at
    most as many as the window is wide. -/
theorem length_le_window {l : List ℕ} {next W : ℕ} (hasc : l.Pairwise (· < ·))
    (hbelow : ∀ s ∈ l, s < next) (hwin : ∀ s ∈ l.head?, next ≤ s + W) : l.length ≤ W := by
  cases l with
  | nil => exact Nat.zero_le _
  | cons s rest =>
    have hlow : ∀ r ∈ s :: rest, s ≤ r := by
      intro r hr
      rw [List.pairwise_cons] at hasc
      rcases List.mem_cons.mp hr with rfl | hr
      · exact Nat.le_refl _
      · exact Nat.le_of_lt (hasc.1 r hr)
    have hlen := length_le_of_ascending hasc hlow hbelow
    have hs := hwin s rfl
    omega

variable {t : RtTransport}

/-- A send queue in order meets the representation invariant. -/
theorem SendReady.sendQueueOk (h : SendReady t) : SendQueueOk t := by
  have hasc : (t.se.sendSegments.map RtSegment.seq).Pairwise (· < ·) := by
    have := h.queue.ascending
    rwa [RtTransport.endpoint, map_entry_fst] at this
  have hbelow : ∀ s ∈ t.se.sendSegments, s.seq < t.se.nextSendSeq :=
    fun s hs => h.queue.lt_next (p := s.entry) (List.mem_map_of_mem hs)
  have hwin : ∀ s ∈ t.se.sendSegments.head?, t.se.nextSendSeq ≤ s.seq + rudpTMaxNumAck :=
    fun s hs => h.queue.window_all (p := s.entry)
      (List.mem_map_of_mem (List.mem_of_mem_head? hs))
  refine ⟨hasc, hbelow, ?_, hwin⟩
  have hseqs : ∀ n ∈ t.se.sendSegments.map RtSegment.seq, n < t.se.nextSendSeq := by
    simpa using hbelow
  have hlen := length_le_window (W := rudpTMaxNumAck) hasc hseqs (by simpa using hwin)
  rwa [List.length_map] at hlen

/-! ### The calls of `rt_queue_segment` -/

/-- One call: the state it is made in, and what it is to queue. -/
structure QueueCall where
  state : RtTransport
  kind : SegmentKind
  data : SegmentData

/-- The queue has room: the call does not take the branch that drops the segment. -/
def QueueCall.HasRoom (c : QueueCall) : Prop :=
  c.state.se.sendSegments.length < rudpTMaxNumAck

/-- What a call adds to the record when it has room. -/
def QueueCall.entry (c : QueueCall) : SegmentKind × SegmentData := (c.kind, c.data)

/-- The calls of the drain loop: keep-alive requests answered with nothing outstanding. -/
def drainCalls (cur : ℕ) : List RtSegment → RtTransport → List QueueCall
  | [], _ => []
  | s :: rest, t =>
    if s.seq ≠ cur + 1 then []
    else
      (if isMagic s.data t.se.magicReq ∧ t.se.sendSegments.length = 0 then
        [⟨t, .keepAlive, t.se.magicResp.toSegmentData⟩] else []) ++
      match rtDrainOne t s with
      | none => []
      | some t' => drainCalls (cur + 1) rest t'

/-- The calls of the segmenting loop, one for each iteration. -/
def segmentCalls : ℕ → RtTransport → List QueueCall
  | 0, _ => []
  | fuel + 1, t =>
    if seqMin t ≠ 0 ∧ seqMin t + rudpTMaxNumAck - 1 < t.se.nextSendSeq then []
    else if t.se.sendFifo.size = 0 then []
    else ⟨t, .stream, rtNextChunk t⟩ :: segmentCalls fuel (rtCutSegment t)

/-- The call of the keep-alive. -/
def keepaliveCalls (io : RtIo) (t : RtTransport) : List QueueCall :=
  if (t.se.lastSentTick = 0 ∨ io.tick ≥ t.se.lastSentTick + t.se.nextKeepaliveInterval) ∧
      t.se.sendSegments.length = 0 then
    [⟨t, .keepAlive, t.se.magicReq.toSegmentData⟩]
  else []

/-- The state in which an interrupt calls `rt_segment_send_fifo`. -/
def beforeSegmenting (io : RtIo) (t : RtTransport) : RtTransport :=
  rtPumpPairToSend io.tick io.recvs (rtPumpRecvToPair io.tick io.sends (rtDrain t))

/-- **The calls of `rt_queue_segment` during one action.** -/
def queueCalls (t : RtTransport) : RtAction → List QueueCall
  | .interrupt io =>
    if t.se.status = .established ∧ ¬ io.tick ≥ t.se.latestRecvMyTick + rudpTTimeoutMs then
      drainCalls t.se.lastRecvCompleteSeq t.se.recvSegments t ++
      (segmentCalls (beforeSegmenting io t).se.sendFifo.size (beforeSegmenting io t) ++
        keepaliveCalls io (rtPump io (rtDrain t)))
    else []
  | .datagram _ _ _ _ => []
  | .halt _ => []

/-! ### What a call records -/

/-- A call with room queues its segment. -/
theorem rtQueueSegment_queued {c : QueueCall} (h : c.HasRoom) :
    (rtQueueSegment c.state c.kind c.data).obs.queued = c.state.obs.queued ++ [c.entry] := by
  have hqueue : rtQueueSegment c.state c.kind c.data = _ := if_neg (Nat.not_le.mpr h)
  rw [hqueue]
  rfl

/-- An empty queue has room. -/
theorem hasRoom_of_empty {c : QueueCall} (h : c.state.se.sendSegments.length = 0) :
    c.HasRoom := by
  rw [QueueCall.HasRoom, h]
  decide

/-- The calls of the drain loop have room, and are what it queues. -/
theorem rtDrainLoop_queued (segs : List RtSegment) (cur : ℕ) (t : RtTransport) :
    (∀ c ∈ drainCalls cur segs t, c.HasRoom) ∧
      (rtDrainLoop cur segs t).2.obs.queued =
        t.obs.queued ++ (drainCalls cur segs t).map QueueCall.entry := by
  induction segs generalizing cur t with
  | nil => exact ⟨fun c hc => absurd hc List.not_mem_nil, (List.append_nil _).symm⟩
  | cons s rest ih =>
    -- one iteration: the call it makes, and what it leaves in the record
    set call : List QueueCall := if isMagic s.data t.se.magicReq ∧
      t.se.sendSegments.length = 0 then [⟨t, .keepAlive, t.se.magicResp.toSegmentData⟩] else []
      with hcall
    have hroom : ∀ c ∈ call, c.HasRoom := by
      intro c hc
      rw [hcall] at hc
      split at hc
      · rename_i hempty
        rw [List.mem_singleton] at hc
        subst hc
        exact hasRoom_of_empty hempty.2
      · exact absurd hc List.not_mem_nil
    have hone : ∀ t', rtDrainOne t s = some t' →
        t'.obs.queued = t.obs.queued ++ call.map QueueCall.entry := by
      intro t' h
      unfold rtDrainOne at h
      by_cases hreq : isMagic s.data t.se.magicReq = true
      · rw [if_pos hreq, Option.some.injEq] at h
        subst h
        by_cases hempty : t.se.sendSegments.length = 0
        · have hc : call = [⟨t, .keepAlive, t.se.magicResp.toSegmentData⟩] :=
            if_pos ⟨hreq, hempty⟩
          rw [hc, if_pos hempty]
          exact rtQueueSegment_queued (c := ⟨t, _, _⟩) (hasRoom_of_empty hempty)
        · have hc : call = [] := if_neg (fun hb => hempty hb.2)
          rw [hc, if_neg hempty]
          exact (List.append_nil _).symm
      · have hc : call = [] := if_neg (fun hb => hreq hb.1)
        rw [if_neg hreq] at h
        rw [hc]
        split at h
        · rw [Option.some.injEq] at h
          subst h
          exact (List.append_nil _).symm
        · split at h
          · exact absurd h (by simp)
          · rw [Option.some.injEq] at h
            subst h
            exact (List.append_nil _).symm
    rw [drainCalls, rtDrainLoop]
    by_cases hseq : s.seq ≠ cur + 1
    · rw [if_pos hseq, if_pos hseq]
      exact ⟨fun c hc => absurd hc List.not_mem_nil, (List.append_nil _).symm⟩
    · rw [if_neg hseq, if_neg hseq, ← hcall]
      cases hd : rtDrainOne t s with
      | none =>
        -- a request is always answered, so a full FIFO means there was no call
        have hc : call = [] := by
          rw [hcall, if_neg]
          rintro ⟨hreq, -⟩
          rw [rtDrainOne, if_pos hreq] at hd
          exact absurd hd (by simp)
        rw [hc]
        exact ⟨fun c hc => absurd hc List.not_mem_nil, (List.append_nil _).symm⟩
      | some t' =>
        obtain ⟨hrest, hqueued⟩ := ih (cur + 1) t'
        constructor
        · intro c hc
          rcases List.mem_append.mp hc with hc | hc
          · exact hroom c hc
          · exact hrest c hc
        · show (rtDrainLoop (cur + 1) rest t').2.obs.queued = _
          rw [hqueued, hone t' hd, List.map_append, List.append_assoc]

/-- **The segmenting loop.** An open window leaves room in the queue, so every call has
    room; what is taken from `send_fifo` is what is queued. -/
theorem rtSegmentLoop_queued (fuel : ℕ) (hok : SendOk rudpTMaxNumAck t.endpoint) :
    (∀ c ∈ segmentCalls fuel t, c.HasRoom) ∧
      (rtSegmentLoop fuel t).obs.queued =
        t.obs.queued ++ (segmentCalls fuel t).map QueueCall.entry ∧
      t.se.sendFifo.contents = concat ((segmentCalls fuel t).map QueueCall.data) ++
        (rtSegmentLoop fuel t).se.sendFifo.contents := by
  have hstop : (∀ c ∈ ([] : List QueueCall), c.HasRoom) ∧
      t.obs.queued = t.obs.queued ++ ([] : List QueueCall).map QueueCall.entry ∧
      t.se.sendFifo.contents = concat (([] : List QueueCall).map QueueCall.data) ++
        t.se.sendFifo.contents :=
    ⟨fun c hc => absurd hc List.not_mem_nil, (List.append_nil _).symm, rfl⟩
  -- an open window is what gives the call its room
  induction fuel generalizing t with
  | zero => exact hstop
  | succ fuel ih =>
    rw [segmentCalls, rtSegmentLoop]
    by_cases hwin : seqMin t ≠ 0 ∧ seqMin t + rudpTMaxNumAck - 1 < t.se.nextSendSeq
    · rw [if_pos hwin, if_pos hwin]
      exact hstop
    · rw [if_neg hwin, if_neg hwin]
      by_cases hsize : t.se.sendFifo.size = 0
      · rw [if_pos hsize, if_pos hsize]
        exact hstop
      · rw [if_neg hsize, if_neg hsize]
        have hopen := open_of_seqMin hwin (SendOk.head_pos hok)
        have hroom : (QueueCall.mk t .stream (rtNextChunk t)).HasRoom := by
          have hlen := hok.length_lt (by decide) (by
            intro p hp
            simp only [RtTransport.endpoint, List.head?_map, Option.mem_map] at hp
            obtain ⟨s, hs, rfl⟩ := hp
            exact hopen s hs)
          simpa [RtTransport.endpoint, QueueCall.HasRoom] using hlen
        have hok' := sendOk_of_steps hok (rtCutSegment_steps (P := fun _ => True) hopen)
        have hrecord : (rtCutSegment t).obs.queued =
            t.obs.queued ++ [(SegmentKind.stream, rtNextChunk t)] :=
          rtQueueSegment_queued hroom
        have hfifo : (rtCutSegment t).se.sendFifo =
            t.se.sendFifo.advance (min t.se.sendFifo.size rudpTMaxSegmentSize) := by
          unfold rtCutSegment rtQueueSegment
          split <;> rfl
        have hchunk : (rtNextChunk t).1 =
            t.se.sendFifo.contents.take (min t.se.sendFifo.size rudpTMaxSegmentSize) :=
          t.se.sendFifo.peek_eq_take _
        obtain ⟨hrest, hqueued, hcont⟩ := ih hok'
          ⟨fun c hc => absurd hc List.not_mem_nil, (List.append_nil _).symm, rfl⟩
        refine ⟨?_, ?_, ?_⟩
        · intro c hc
          rcases List.mem_cons.mp hc with rfl | hc
          · exact hroom
          · exact hrest c hc
        · rw [hqueued, hrecord, List.map_cons, List.append_assoc]
          rfl
        · rw [List.map_cons, concat, List.flatMap_cons, List.append_assoc]
          show _ = (rtNextChunk t).1 ++ (concat _ ++ _)
          rw [← hcont, hfifo, RingBuffer.contents_advance, hchunk, List.take_append_drop]

/-- The keep-alive. -/
theorem rtKeepalive_queued (io : RtIo) (t : RtTransport) :
    (∀ c ∈ keepaliveCalls io t, c.HasRoom) ∧
      (rtKeepalive io t).obs.queued =
        t.obs.queued ++ (keepaliveCalls io t).map QueueCall.entry := by
  unfold keepaliveCalls rtKeepalive
  by_cases hdue : t.se.lastSentTick = 0 ∨
      io.tick ≥ t.se.lastSentTick + t.se.nextKeepaliveInterval
  · by_cases hempty : t.se.sendSegments.length = 0
    · rw [if_pos ⟨hdue, hempty⟩, if_pos hdue, if_pos hempty]
      have hroom : (QueueCall.mk t .keepAlive t.se.magicReq.toSegmentData).HasRoom :=
        hasRoom_of_empty hempty
      refine ⟨?_, rtQueueSegment_queued hroom⟩
      intro c hc
      rw [List.mem_singleton] at hc
      subst hc
      exact hroom
    · rw [if_neg (fun hb => hempty hb.2), if_pos hdue, if_neg hempty]
      exact ⟨fun c hc => absurd hc List.not_mem_nil, (List.append_nil _).symm⟩
  · rw [if_neg (fun hb => hdue hb.1), if_neg hdue]
    exact ⟨fun c hc => absurd hc List.not_mem_nil, (List.append_nil _).symm⟩

/-! ### One action -/

/-- The send queue is in order when the segmenting loop starts. -/
theorem beforeSegmenting_sendOk (io : RtIo) (h : SendOk rudpTMaxNumAck t.endpoint) :
    SendOk rudpTMaxNumAck (beforeSegmenting io t).endpoint :=
  sendOk_of_steps (P := fun _ => True) h
    (((rtDrain_steps t).trans (rtPumpRecvToPair_steps io.tick io.sends _)).trans
      (rtPumpPairToSend_steps io.tick io.recvs _))

/-- **What an action queues.** Every call of `rt_queue_segment` has room, and the segments
    queued are those it was called with. -/
theorem rtStep_queued (h : SendOk rudpTMaxNumAck t.endpoint) (a : RtAction) :
    (∀ c ∈ queueCalls t a, c.HasRoom) ∧
      (rtStep t a).obs.queued = t.obs.queued ++ (queueCalls t a).map QueueCall.entry := by
  have hidle : ∀ {t' : RtTransport}, t'.obs.queued = t.obs.queued →
      (∀ c ∈ ([] : List QueueCall), c.HasRoom) ∧
        t'.obs.queued = t.obs.queued ++ ([] : List QueueCall).map QueueCall.entry :=
    fun hq => ⟨fun c hc => absurd hc List.not_mem_nil, by simpa using hq⟩
  cases a with
  | datagram tick srcIp srcPort d =>
    exact hidle (congrArg Prod.snd (rtHandleUdpPacket_moved tick srcIp srcPort t d))
  | halt tick => exact hidle (congrArg (fun k => k.1.2) (rtSetDisconnected_kept tick t false))
  | interrupt io =>
    by_cases hrun : t.se.status = .established ∧
        ¬ io.tick ≥ t.se.latestRecvMyTick + rudpTTimeoutMs
    · -- the three places in the order in which the interrupt reaches them
      obtain ⟨hst, hlive⟩ := hrun
      obtain ⟨hroom1, hdrain⟩ :=
        rtDrainLoop_queued t.se.recvSegments t.se.lastRecvCompleteSeq t
      obtain ⟨hroom2, hsegment, -⟩ := rtSegmentLoop_queued
        (beforeSegmenting io t).se.sendFifo.size (beforeSegmenting_sendOk io h)
      obtain ⟨hroom3, hkeep⟩ := rtKeepalive_queued io (rtPump io (rtDrain t))
      have hcalls : queueCalls t (.interrupt io) = _ := if_pos ⟨hst, hlive⟩
      rw [hcalls]
      constructor
      · intro c hc
        rcases List.mem_append.mp hc with hc | hc
        · exact hroom1 c hc
        · rcases List.mem_append.mp hc with hc | hc
          · exact hroom2 c hc
          · exact hroom3 c hc
      · have hbefore : (beforeSegmenting io t).obs.queued = (rtDrain t).obs.queued :=
          (congrArg Prod.fst (rtPumpPairToSend_rest io.tick io.recvs _)).trans
            (congrArg (fun k => k.1.2) (rtPumpRecvToPair_kept io.tick io.sends _))
        have hpump : (rtPump io (rtDrain t)).obs.queued = (beforeSegmenting io t).obs.queued ++ _ :=
          hsegment
        have hstart : (rtDrain t).obs.queued = t.obs.queued ++ _ := hdrain
        have hend : (rtStep t (.interrupt io)).obs.queued =
            (rtKeepalive io (rtPump io (rtDrain t))).obs.queued :=
          congrArg (fun k => k.1.2) (rtInterrupt_established_kept io hst hlive)
        rw [hend, hkeep, hpump, hbefore, hstart, List.map_append, List.map_append,
          List.append_assoc, List.append_assoc]
    · have hcalls : queueCalls t (.interrupt io) = [] := if_neg hrun
      rw [hcalls]
      rw [not_and_or, not_not] at hrun
      exact hidle (congrArg (fun k => k.1.2) (rtInterrupt_idle_kept io hrun))

/-! ### Every reachable state -/

/-- `rt_segment_send_fifo` takes from `send_fifo` exactly the bytes of the stream segments
    it queues. -/
def FifoKept (t : RtTransport) : Prop :=
  ∃ cut : List SegmentData,
    (rtSegmentSendFifo t).obs.queued = t.obs.queued ++ cut.map (fun d => (SegmentKind.stream, d)) ∧
    t.se.sendFifo.contents = concat cut ++ (rtSegmentSendFifo t).se.sendFifo.contents

/-- The calls of the segmenting loop all carry stream data. -/
theorem segmentCalls_entry (fuel : ℕ) (t : RtTransport) :
    (segmentCalls fuel t).map QueueCall.entry =
      ((segmentCalls fuel t).map QueueCall.data).map (fun d => (SegmentKind.stream, d)) := by
  induction fuel generalizing t with
  | zero => rfl
  | succ fuel ih =>
    rw [segmentCalls]
    split
    · rfl
    · split
      · rfl
      · rw [List.map_cons, List.map_cons, List.map_cons, ih]
        rfl

/-- The chunks of the calls are what the FIFO loses. -/
theorem fifoKept_of_sendOk (h : SendOk rudpTMaxNumAck t.endpoint) : FifoKept t := by
  obtain ⟨-, hqueued, hcont⟩ := rtSegmentLoop_queued t.se.sendFifo.size h
  refine ⟨(segmentCalls t.se.sendFifo.size t).map QueueCall.data, ?_, hcont⟩
  rw [← segmentCalls_entry]
  exact hqueued

/-- **The send queue of a session.** In every reachable state `send_segments` meets its
    representation invariant; whatever the worker does next, no call of `rt_queue_segment`
    finds the queue full, every segment it is called with is queued, and the bytes that
    `rt_segment_send_fifo` takes from the FIFO are in the segments it queued. -/
theorem sendQueue_run (c : RtConnect) (acts : List RtAction) :
    SendQueueOk (run rtStep (rtInit c) acts) ∧
      (∀ a, (∀ q ∈ queueCalls (run rtStep (rtInit c) acts) a, q.HasRoom) ∧
        (rtStep (run rtStep (rtInit c) acts) a).obs.queued =
          (run rtStep (rtInit c) acts).obs.queued ++
            (queueCalls (run rtStep (rtInit c) acts) a).map QueueCall.entry) ∧
      ∀ io, FifoKept (beforeSegmenting io (run rtStep (rtInit c) acts)) := by
  have hready : SendReady (run rtStep (rtInit c) acts) :=
    run_invariant (I := SendReady) (fun _ a h => rtStep_sendReady h a) (rtInit_sendReady c) acts
  refine ⟨hready.sendQueueOk, fun a => rtStep_queued hready.queue a, fun io => ?_⟩
  exact fifoKept_of_sendOk (beforeSegmenting_sendOk io hready.queue)

end SoftEther.Transport
