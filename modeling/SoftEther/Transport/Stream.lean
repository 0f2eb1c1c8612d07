import SoftEther.Transport.Bytes
import SoftEther.Transport.Window

namespace SoftEther.Transport

open Lib Lib.SlidingWindow
open Relation

/-!
# Two transports over a lossy network

Two endpoints that derived the same magics, and a network that delivers any output of
one of them to the other, any number of times, in any order, or never.

* `rtNetStep` — one delivery, interrupt or end of a worker;
* `rtNet_refines` — every run is a run of the sliding-window net;
* `Accounted` — a number once used is kept by the sender or had by the receiver;
* keep-alives travel in band: a payload equal to a keep-alive magic is consumed by the
  receiver, whoever queued it.
-/

/-! ### The network -/

/-- The endpoint that acts. -/
inductive Side
  | left
  | right
  deriving DecidableEq, Repr

/-- Two transports. -/
structure RtNet where
  left : RtTransport
  right : RtTransport

/-- What one endpoint does: it receives output `i` of its peer, runs `rt_interrupt`, or
    its worker ends. -/
inductive RtPeerAction
  | deliver (i tick srcIp srcPort size : ℕ)
  | interrupt (io : RtIo)
  | halt (tick : ℕ)

/-- One action of an endpoint. An output that is not a segment does not verify. -/
def rtPeerStep (t peer : RtTransport) : RtPeerAction → RtTransport
  | .deliver i tick srcIp srcPort size =>
    match peer.obs.sent[i]? with
    | none => t
    | some out => rtStep t (.datagram tick srcIp srcPort ⟨size, out.packet⟩)
  | .interrupt io => rtStep t (.interrupt io)
  | .halt tick => rtStep t (.halt tick)

/-- One action of the net. -/
def rtNetStep (n : RtNet) : Side × RtPeerAction → RtNet
  | (.left, a) => { n with left := rtPeerStep n.left n.right a }
  | (.right, a) => { n with right := rtPeerStep n.right n.left a }

/-- The net at its start. Both sides derive the magics from the same key. -/
def rtNetStart (c c' : RtConnect) (sl sr : RtStatus) : RtNet where
  left := rtStart c sl
  right := rtStart { c' with magicReq := c.magicReq, magicResp := c.magicResp } sr

/-! ### Refinement -/

/-- The net of the sliding-window endpoints. -/
def RtNet.abs (n : RtNet) : Net SegmentData := ⟨n.left.endpoint, n.right.endpoint⟩

/-- A packet among the outputs of the peer is one of its sent packets. -/
theorem mem_sent_of_output {peer : RtTransport} {i : ℕ} {out : RtOutput} {p : RtPacket}
    (hi : peer.obs.sent[i]? = some out) (hp : out.packet = some p) :
    p.abs ∈ peer.endpoint.sent :=
  List.mem_map_of_mem
    (List.mem_filterMap.mpr ⟨out, List.mem_of_getElem? hi, hp⟩)

variable {t : RtTransport} {req resp : Sha1Value}

theorem rtPeerStep_steps (peer : RtTransport) (h : SendOk rudpTMaxNumAck t.endpoint)
    (a : RtPeerAction) :
    Steps (· ∈ peer.endpoint.sent) t.endpoint (rtPeerStep t peer a).endpoint := by
  cases a with
  | deliver i tick srcIp srcPort size =>
    cases hi : peer.obs.sent[i]? with
    | none =>
      simp only [rtPeerStep, hi]
      exact ReflTransGen.refl
    | some out =>
      simp only [rtPeerStep, hi]
      refine rtStep_steps h _ ?_
      intro tick' srcIp' srcPort' d p hd hp
      rw [RtAction.datagram.injEq] at hd
      rw [← hd.2.2.2] at hp
      exact mem_sent_of_output hi hp
  | interrupt io => exact rtStep_steps h _ (by simp)
  | halt tick => exact rtStep_steps h _ (by simp)

/-- **One action of the net** is matched by steps of the sliding-window net. -/
theorem rtNetStep_refines {n : RtNet} (hl : SendOk rudpTMaxNumAck n.left.endpoint)
    (hr : SendOk rudpTMaxNumAck n.right.endpoint) (a : Side × RtPeerAction) :
    ReflTransGen (NetStep rudpTMaxNumAck) n.abs (rtNetStep n a).abs := by
  obtain ⟨side, act⟩ := a
  cases side with
  | left => exact NetStep.lift_left n.abs (rtPeerStep_steps n.right hl act)
  | right => exact NetStep.lift_right n.abs (rtPeerStep_steps n.left hr act)

/-- **Runs of the net** are runs of the sliding-window net. -/
theorem rtNet_refines (c c' : RtConnect) (sl sr : RtStatus) (as : List (Side × RtPeerAction)) :
    ReflTransGen (NetStep rudpTMaxNumAck) (rtNetStart c c' sl sr).abs
      (run rtNetStep (rtNetStart c c' sl sr) as).abs := by
  refine run_invariant
    (I := fun n : RtNet => ReflTransGen (NetStep rudpTMaxNumAck) (rtNetStart c c' sl sr).abs n.abs)
    ?_ ReflTransGen.refl as
  intro n a hn
  obtain ⟨hlr, hrl⟩ := Net.flow_of_reachable (by decide) (rtStart_fresh _ _) (rtStart_fresh _ _) hn
  exact hn.trans (rtNetStep_refines hlr.send hrl.send a)

/-- Both directions of the connection, in every reachable state. -/
theorem rtNet_flow (c c' : RtConnect) (sl sr : RtStatus) (as : List (Side × RtPeerAction)) :
    let n := run rtNetStep (rtNetStart c c' sl sr) as
    Flow rudpTMaxNumAck n.left.endpoint n.right.endpoint ∧
      Flow rudpTMaxNumAck n.right.endpoint n.left.endpoint :=
  Net.flow_of_reachable (by decide) (rtStart_fresh _ _) (rtStart_fresh _ _)
    (rtNet_refines c c' sl sr as)

/-! ### What is appended to `recv_fifo` -/

/-- The magics of the session, and: the bytes appended are those of the drained payloads
    that are not keep-alives. -/
structure InboundOk (req resp : Sha1Value) (v : Inbound) : Prop where
  req_eq : v.magicReq = req
  resp_eq : v.magicResp = resp
  appended_eq : v.appended = concat (plainOf req resp v.drained)

/-- A drained keep-alive adds no bytes, any other drained payload adds its own. -/
theorem InboundOk.drain {t' : RtTransport} {s : RtSegment} (h : InboundOk req resp t.bytes.1)
    (hs : rtDrainOne t s = some t') : InboundOk req resp t'.bytes.1 := by
  obtain ⟨hreq, hresp, happ⟩ := h
  have hreq' : t.se.magicReq = req := hreq
  have hresp' : t.se.magicResp = resp := hresp
  have happ' : t.obs.appended = concat (plainOf req resp t.obs.drained) := happ
  -- a request, a response, or a payload
  unfold rtDrainOne at hs
  rw [hreq', hresp'] at hs
  split at hs
  · rename_i hmagic
    rw [Option.some.injEq] at hs
    have hka : isKeepAlive req resp s.data = true := by rw [isKeepAlive, hmagic, Bool.true_or]
    have hview : t'.bytes.1 = ⟨t.se.magicReq, t.se.magicResp, t.obs.drained ++ [s.data],
        t.obs.appended⟩ := by
      subst hs
      unfold rtQueueSegment
      split
      · split <;> rfl
      · rfl
    rw [hview]
    refine ⟨hreq, hresp, ?_⟩
    show t.obs.appended = concat (plainOf req resp (t.obs.drained ++ [s.data]))
    rw [plainOf, List.filter_append, List.filter_singleton, hka, happ']
    simp [plainOf]
  · rename_i hreqm
    split at hs
    · rename_i hmagic
      rw [Option.some.injEq] at hs
      subst hs
      have hka : isKeepAlive req resp s.data = true := by rw [isKeepAlive, hmagic, Bool.or_true]
      refine ⟨hreq, hresp, ?_⟩
      show t.obs.appended = concat (plainOf req resp (t.obs.drained ++ [s.data]))
      rw [plainOf, List.filter_append, List.filter_singleton, hka, happ']
      simp [plainOf]
    · rename_i hrespm
      split at hs
      · exact absurd hs (by simp)
      · rw [Option.some.injEq] at hs
        subst hs
        have hka : isKeepAlive req resp s.data = false := by
          rw [isKeepAlive, Bool.or_eq_false_iff]
          exact ⟨Bool.not_eq_true _ ▸ hreqm, Bool.not_eq_true _ ▸ hrespm⟩
        refine ⟨hreq, hresp, ?_⟩
        show t.obs.appended ++ s.data.1 = concat (plainOf req resp (t.obs.drained ++ [s.data]))
        rw [plainOf, List.filter_append, List.filter_singleton, hka, concat,
          List.flatMap_append, happ']
        simp [concat, plainOf]

theorem rtDrain_inboundOk (h : InboundOk req resp t.bytes.1) :
    InboundOk req resp (rtDrain t).bytes.1 := by
  have hloop : ∀ (segs : List RtSegment) (cur : ℕ) (u : RtTransport),
      InboundOk req resp u.bytes.1 → InboundOk req resp (rtDrainLoop cur segs u).2.bytes.1 := by
    intro segs
    induction segs with
    | nil => exact fun cur u hu => hu
    | cons s rest ih =>
      intro cur u hu
      unfold rtDrainLoop
      split
      · exact hu
      · cases hone : rtDrainOne u s with
        | none => exact hu
        | some u' => exact ih (cur + 1) u' (hu.drain hone)
  exact hloop t.se.recvSegments t.se.lastRecvCompleteSeq t h

/-! ### What is queued -/

/-- The bytes of a session: the received ones as in `InboundOk`, and the queued payloads
    that are not keep-alives are those of the stream segments that are not. -/
structure BytesOk (req resp : Sha1Value) (t : RtTransport) : Prop where
  inbound : InboundOk req resp t.bytes.1
  plain_eq : t.bytes.2.plain = plainOf req resp t.bytes.2.streamed

theorem BytesOk.congr {t' : RtTransport} (h : BytesOk req resp t) (heq : t'.bytes = t.bytes) :
    BytesOk req resp t' where
  inbound := by rw [heq]; exact h.inbound
  plain_eq := by rw [heq]; exact h.plain_eq

theorem rtCutSegment_bytesOk (h : BytesOk req resp t) : BytesOk req resp (rtCutSegment t) := by
  obtain ⟨hin, hplain⟩ := h
  refine ⟨by rw [rtCutSegment_inbound]; exact hin, ?_⟩
  have hreq : t.se.magicReq = req := hin.req_eq
  have hresp : t.se.magicResp = resp := hin.resp_eq
  have hplain' : plainOf req resp (t.obs.queued.map Prod.snd) =
      plainOf req resp t.obs.streamPayloads := by
    rw [← hreq, ← hresp] at hplain ⊢
    exact hplain
  unfold rtCutSegment rtQueueSegment
  split
  · exact hplain
  · show plainOf t.se.magicReq t.se.magicResp
        ((t.obs.queued ++ [(SegmentKind.stream, rtNextChunk t)]).map Prod.snd) =
      plainOf req resp
        (((t.obs.queued ++ [(SegmentKind.stream, rtNextChunk t)]).filter
          (fun q => q.1 = .stream)).map Prod.snd)
    rw [hreq, hresp, List.map_append, List.filter_append, List.map_append]
    simp only [plainOf, List.filter_append] at hplain' ⊢
    rw [hplain']
    simp [RtObs.streamPayloads]

theorem rtSegmentLoop_bytesOk (fuel : ℕ) (h : BytesOk req resp t) :
    BytesOk req resp (rtSegmentLoop fuel t) := by
  induction fuel generalizing t with
  | zero => exact h
  | succ fuel ih =>
    unfold rtSegmentLoop
    split
    · exact h
    · split
      · exact h
      · exact ih (rtCutSegment_bytesOk h)

theorem rtPumpPairToSend_bytesOk (tick : ℕ) (rs : List RecvResult) (h : BytesOk req resp t) :
    BytesOk req resp (rtPumpPairToSend tick rs t) := by
  induction rs generalizing t with
  | nil => exact h
  | cons r rs ih =>
    unfold rtPumpPairToSend
    split
    · exact h
    · cases r with
      | wouldBlock => exact h
      | failed => exact h.congr (rtSetDisconnected_bytes tick t false)
      | eof => exact h.congr (rtSetDisconnected_bytes tick t false)
      | chunk c => exact ih ⟨h.inbound, h.plain_eq⟩

theorem rtPump_bytesOk (io : RtIo) (h : BytesOk req resp t) : BytesOk req resp (rtPump io t) :=
  rtSegmentLoop_bytesOk _ (rtPumpPairToSend_bytesOk io.tick io.recvs
    (h.congr (rtPumpRecvToPair_bytes io.tick io.sends t)))

theorem rtDrain_bytesOk (h : BytesOk req resp t) : BytesOk req resp (rtDrain t) where
  inbound := rtDrain_inboundOk h.inbound
  plain_eq := by rw [rtDrain_outbound]; exact h.plain_eq

theorem rtInterrupt_bytesOk (io : RtIo) (h : BytesOk req resp t) :
    BytesOk req resp (rtInterrupt io t) := by
  by_cases hst : t.se.status = .established
  · by_cases hlive : io.tick ≥ t.se.latestRecvMyTick + rudpTTimeoutMs
    · exact h.congr (rtInterrupt_idle_bytes io (Or.inr hlive))
    · exact (rtPump_bytesOk io (rtDrain_bytesOk h)).congr
        (rtInterrupt_established_bytes io hst hlive)
  · exact h.congr (rtInterrupt_idle_bytes io (Or.inl hst))

/-- **Step lemma for the bytes**, for any datagram. -/
theorem rtStep_bytesOk (h : BytesOk req resp t) (a : RtAction) : BytesOk req resp (rtStep t a) := by
  cases a with
  | datagram tick srcIp srcPort d =>
    exact h.congr (rtHandleUdpPacket_bytes tick srcIp srcPort t d)
  | interrupt io => exact rtInterrupt_bytesOk io h
  | halt tick => exact h.congr (rtSetDisconnected_bytes tick t false)

theorem rtPeerStep_bytesOk (h : BytesOk req resp t) (peer : RtTransport) (a : RtPeerAction) :
    BytesOk req resp (rtPeerStep t peer a) := by
  cases a with
  | deliver i tick srcIp srcPort size =>
    cases hi : peer.obs.sent[i]? with
    | none =>
      simp only [rtPeerStep, hi]
      exact h
    | some out =>
      simp only [rtPeerStep, hi]
      exact rtStep_bytesOk h _
  | interrupt io => exact rtStep_bytesOk h (.interrupt io)
  | halt tick => exact rtStep_bytesOk h (.halt tick)

theorem rtStart_bytesOk (c : RtConnect) (status : RtStatus) :
    BytesOk c.magicReq c.magicResp (rtStart c status) :=
  ⟨⟨rfl, rfl, rfl⟩, rfl⟩

/-- The bytes of both endpoints, in every reachable state. -/
theorem rtNet_bytesOk (c c' : RtConnect) (sl sr : RtStatus) (as : List (Side × RtPeerAction)) :
    BytesOk c.magicReq c.magicResp (run rtNetStep (rtNetStart c c' sl sr) as).left ∧
      BytesOk c.magicReq c.magicResp (run rtNetStep (rtNetStart c c' sl sr) as).right := by
  refine run_invariant
    (I := fun n : RtNet => BytesOk c.magicReq c.magicResp n.left ∧
      BytesOk c.magicReq c.magicResp n.right)
    ?_ ⟨rtStart_bytesOk c sl, rtStart_bytesOk
      { c' with magicReq := c.magicReq, magicResp := c.magicResp } sr⟩ as
  rintro n ⟨side, a⟩ ⟨hl, hr⟩
  cases side with
  | left => exact ⟨rtPeerStep_bytesOk hl n.right a, hr⟩
  | right => exact ⟨hl, rtPeerStep_bytesOk hr n.left a⟩

/-! ### Safety -/

/-- Every number used by `a` is still in its send queue, or in the receive buffer of `b`,
    or complete at `b`. -/
def Accounted (a b : RtTransport) : Prop :=
  ∀ s, 1 ≤ s → s < a.se.nextSendSeq →
    s ∈ a.se.sendSegments.map RtSegment.seq ∨
      s ∈ b.se.recvSegments.map RtSegment.seq ∨ s ≤ b.se.lastRecvCompleteSeq

/-- What `b` has appended to its receive FIFO is an initial part of the stream segments
    of `a`, all of them. -/
def StreamPrefix (a b : RtTransport) : Prop :=
  b.obs.appended <+: concat a.obs.streamPayloads

/-- The same, without the segments that equal a keep-alive magic. -/
def PlainStreamPrefix (req resp : Sha1Value) (a b : RtTransport) : Prop :=
  b.obs.appended <+: concat (plainOf req resp a.obs.streamPayloads)

theorem Accounted.of_flow {a b : RtTransport}
    (h : Flow rudpTMaxNumAck a.endpoint b.endpoint) : Accounted a b := by
  intro s h1 hlt
  rcases h.released s h1 hlt with hk | hdone | hbuf
  · left
    have hk' : s ∈ (a.se.sendSegments.map RtSegment.entry).map Prod.fst := hk
    rwa [map_entry_fst] at hk'
  · exact Or.inr (Or.inr hdone)
  · right
    left
    have hbuf' : s ∈ (b.se.recvSegments.map RtSegment.entry).map Prod.fst := hbuf
    rwa [map_entry_fst] at hbuf'

/-- Initial parts stay initial parts when the keep-alives are left out. -/
theorem concat_plainOf_prefix (req resp : Sha1Value) {l m : List SegmentData} (h : l <+: m) :
    concat (plainOf req resp l) <+: concat (plainOf req resp m) := by
  obtain ⟨rest, rfl⟩ := h
  refine ⟨concat (plainOf req resp rest), ?_⟩
  simp [concat, plainOf, List.filter_append]

theorem PlainStreamPrefix.of_flow {a b : RtTransport}
    (h : Flow rudpTMaxNumAck a.endpoint b.endpoint) (ha : BytesOk req resp a)
    (hb : BytesOk req resp b) : PlainStreamPrefix req resp a b := by
  have hreq : a.se.magicReq = req := ha.inbound.req_eq
  have hresp : a.se.magicResp = resp := ha.inbound.resp_eq
  have hdrained : b.obs.drained <+: a.obs.queued.map Prod.snd := h.delivered_prefix
  have happ : b.obs.appended = concat (plainOf req resp b.obs.drained) := hb.inbound.appended_eq
  have hplain : plainOf req resp (a.obs.queued.map Prod.snd) =
      plainOf req resp a.obs.streamPayloads := by
    have hp := ha.plain_eq
    rw [← hreq, ← hresp] at hp ⊢
    exact hp
  rw [PlainStreamPrefix, happ, ← hplain]
  exact concat_plainOf_prefix req resp hdrained

/-- **End-to-end safety**, in both directions and in every reachable state: no number is
    released before the receiver has it, and what the receiver appends is an initial part
    of the stream segments that are not taken for a keep-alive. -/
theorem stream_safety (c c' : RtConnect) (sl sr : RtStatus) (as : List (Side × RtPeerAction)) :
    let n := run rtNetStep (rtNetStart c c' sl sr) as
    (Accounted n.left n.right ∧ PlainStreamPrefix c.magicReq c.magicResp n.left n.right) ∧
      (Accounted n.right n.left ∧ PlainStreamPrefix c.magicReq c.magicResp n.right n.left) := by
  obtain ⟨hlr, hrl⟩ := rtNet_flow c c' sl sr as
  obtain ⟨hl, hr⟩ := rtNet_bytesOk c c' sl sr as
  exact ⟨⟨Accounted.of_flow hlr, PlainStreamPrefix.of_flow hlr hl hr⟩,
    ⟨Accounted.of_flow hrl, PlainStreamPrefix.of_flow hrl hr hl⟩⟩

/-! ### A keep-alive magic in the stream -/

/-- The left application writes the request magic and then one more byte; the three
    segments arrive in order. -/
def magicInStream : List (Side × RtPeerAction) :=
  [(.left, .interrupt (ioReading 2 [])),
   (.left, .interrupt (ioReading 3 [⟨List.replicate 20 7, by decide⟩])),
   (.left, .interrupt (ioReading 4 [⟨[1], by decide⟩])),
   (.right, .deliver 0 5 1 2 100),
   (.right, .deliver 1 5 1 2 100),
   (.right, .deliver 2 5 1 2 100),
   (.right, .interrupt (ioReading 6 []))]

/-- The magic is missing from what the right side appends. -/
theorem stream_prefix_fails :
    let n := run rtNetStep (rtNetStart sampleConnect sampleConnect .established .connectSent)
      magicInStream
    ¬ StreamPrefix n.left n.right := by
  have happ : (run rtNetStep (rtNetStart sampleConnect sampleConnect .established .connectSent)
      magicInStream).right.obs.appended = [255, 255, 255, 255, 0, 0, 0, 0, 1] := by
    decide
  have hcut : concat (run rtNetStep
      (rtNetStart sampleConnect sampleConnect .established .connectSent)
      magicInStream).left.obs.streamPayloads =
      [255, 255, 255, 255, 0, 0, 0, 0] ++ List.replicate 20 7 ++ [1] := by
    decide
  dsimp only
  rw [StreamPrefix, happ, hcut]
  decide

end SoftEther.Transport
