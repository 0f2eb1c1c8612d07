import SoftEther.Transport.Bytes
import SoftEther.Transport.Window

namespace SoftEther.Transport

open Lib Lib.SlidingWindow

/-!
# The reorder buffer

`rt_process_recv_payload` stores segments in the order they arrive in, and the drain loop
of `rt_interrupt` reads them in that order and stops at the first one that is not next.

* `firstArrivals` — the order in which numbers arrive for the first time;
* `rtReceiveAll_spec` — the buffer after any arrivals is in that order;
* `rtDrainLoop_last`, `rtDrainLoop_deliver` — the loop drains exactly the numbers that
  stand in order at the front of the buffer;
* `reorder_complete_iff` — one drain delivers `n` numbers exactly when they arrived in
  increasing order.
-/

/-! ### Arrivals -/

/-- The numbers in the order of their first arrival, behind the ones already there. -/
def firstArrivals (buffered arrivals : List ℕ) : List ℕ :=
  arrivals.foldl (fun acc s => if s ∈ acc then acc else acc ++ [s]) buffered

/-- Segments handed to `rt_process_recv_payload` one after the other. -/
def rtReceiveAll (t : RtTransport) (payload : ℕ → SegmentData) (arrivals : List ℕ) :
    RtTransport :=
  arrivals.foldl (fun t s => rtProcessRecvPayload t s (payload s)) t

/-- A transport with another receive buffer and other pending acknowledgements. -/
def withBuffer (t : RtTransport) (segs : List RtSegment) (acks : List ℕ) : RtTransport :=
  { t with se := { t.se with recvSegments := segs, replyAcks := acks } }

theorem rtAddAck_withBuffer (t : RtTransport) (segs : List RtSegment) (acks : List ℕ) (s : ℕ) :
    ∃ acks', rtAddAck (withBuffer t segs acks) s = withBuffer t segs acks' := by
  unfold rtAddAck
  split
  · exact ⟨acks, rfl⟩
  · split
    · exact ⟨acks ++ [s], rfl⟩
    · exact ⟨acks, rfl⟩

/-- A stored segment. -/
def newSegment (seq : ℕ) (payload : SegmentData) : RtSegment where
  seq := seq
  data := payload
  nextSendTick := 0
  numSent := 0

/-- **A segment inside the window** goes to the end of the buffer, unless its number is
    already there. -/
theorem rtProcessRecvPayload_withBuffer {t : RtTransport} {segs : List RtSegment}
    (acks : List ℕ) {s : ℕ} (x : SegmentData)
    (hok : BufferOk rudpTMaxNumAck (withBuffer t segs acks).endpoint)
    (hnew : t.se.lastRecvCompleteSeq < s) (hwin : s ≤ t.se.lastRecvCompleteSeq + rudpTMaxNumAck) :
    ∃ acks', rtProcessRecvPayload (withBuffer t segs acks) s x =
      withBuffer t (if s ∈ segs.map RtSegment.seq then segs else segs ++ [newSegment s x])
        acks' := by
  have h1 : ¬ s > (withBuffer t segs acks).se.lastRecvCompleteSeq + rudpTMaxNumAck :=
    Nat.not_lt.mpr hwin
  have h2 : ¬ s ≤ (withBuffer t segs acks).se.lastRecvCompleteSeq := Nat.not_le.mpr hnew
  unfold rtProcessRecvPayload
  rw [if_neg h1, if_neg h2]
  by_cases hdup : s ∈ segs.map RtSegment.seq
  · rw [if_pos hdup, if_pos (show s ∈ (withBuffer t segs acks).se.recvSegments.map _ from hdup)]
    exact rtAddAck_withBuffer t segs acks s
  · have hfree : s ∉ (withBuffer t segs acks).endpoint.buffered.map Prod.fst := by
      show s ∉ (segs.map RtSegment.entry).map Prod.fst
      rw [map_entry_fst]
      exact hdup
    have hroom := hok.length_lt hnew hwin hfree
    have hlen : ¬ (withBuffer t segs acks).se.recvSegments.length ≥ rudpTMaxNumAck := by
      have : (segs.map RtSegment.entry).length < rudpTMaxNumAck := hroom
      rw [List.length_map] at this
      exact Nat.not_le.mpr this
    rw [if_neg hdup, if_neg (show s ∉ (withBuffer t segs acks).se.recvSegments.map _ from hdup),
      if_neg hlen]
    exact rtAddAck_withBuffer t (segs ++ [newSegment s x]) acks s

/-- A buffer that grows by a new number of the window stays in order. -/
private theorem bufferOk_append {t : RtTransport} {segs : List RtSegment} {acks acks' : List ℕ}
    {s : ℕ} (x : SegmentData) (hok : BufferOk rudpTMaxNumAck (withBuffer t segs acks).endpoint)
    (hnew : t.se.lastRecvCompleteSeq < s) (hwin : s ≤ t.se.lastRecvCompleteSeq + rudpTMaxNumAck)
    (hfree : s ∉ segs.map RtSegment.seq) :
    BufferOk rudpTMaxNumAck (withBuffer t (segs ++ [newSegment s x]) acks').endpoint := by
  have hfree' : s ∉ (withBuffer t segs acks).endpoint.buffered.map Prod.fst := by
    show s ∉ (segs.map RtSegment.entry).map Prod.fst
    rw [map_entry_fst]
    exact hfree
  have hstep := Step.accept (W := rudpTMaxNumAck) (P := fun _ => True)
    (withBuffer t segs acks).endpoint ⟨s, some x, [], 0⟩ x trivial rfl hnew hwin hfree'
  have hnext := hok.step hstep
  have hbuf : (withBuffer t (segs ++ [newSegment s x]) acks').endpoint.buffered =
      (withBuffer t segs acks).endpoint.buffered ++ [(s, x)] := by
    show (segs ++ [newSegment s x]).map RtSegment.entry = segs.map RtSegment.entry ++ [(s, x)]
    rw [List.map_append]
    rfl
  exact ⟨by rw [hbuf]; exact hnext.above, by rw [hbuf]; exact hnext.within,
    by rw [hbuf]; exact hnext.nodup⟩

/-- **The buffer after any arrivals** holds the numbers in the order of their first
    arrival, each with its payload; nothing else of the session changes but the pending
    acknowledgements. -/
theorem rtReceiveAll_spec (t : RtTransport) (payload : ℕ → SegmentData) (hi : ℕ)
    (hhi : hi ≤ t.se.lastRecvCompleteSeq + rudpTMaxNumAck) (arrivals : List ℕ)
    (hmem : ∀ s ∈ arrivals, t.se.lastRecvCompleteSeq < s ∧ s ≤ hi)
    (segs : List RtSegment) (acks : List ℕ)
    (hok : BufferOk rudpTMaxNumAck (withBuffer t segs acks).endpoint)
    (hdata : ∀ g ∈ segs, g.seq ≤ hi → g.data = payload g.seq) :
    ∃ segs' acks', rtReceiveAll (withBuffer t segs acks) payload arrivals =
        withBuffer t segs' acks' ∧
      segs'.map RtSegment.seq = firstArrivals (segs.map RtSegment.seq) arrivals ∧
      ∀ g ∈ segs', g.seq ≤ hi → g.data = payload g.seq := by
  induction arrivals generalizing segs acks with
  | nil => exact ⟨segs, acks, rfl, rfl, hdata⟩
  | cons s arrivals ih =>
    obtain ⟨hnew, hle⟩ := hmem s List.mem_cons_self
    have hwin : s ≤ t.se.lastRecvCompleteSeq + rudpTMaxNumAck := le_trans hle hhi
    obtain ⟨acks1, hstep⟩ :=
      rtProcessRecvPayload_withBuffer acks (payload s) hok hnew hwin
    have hrest := fun r hr => hmem r (List.mem_cons_of_mem s hr)
    have hfold : rtReceiveAll (withBuffer t segs acks) payload (s :: arrivals) =
        rtReceiveAll (rtProcessRecvPayload (withBuffer t segs acks) s (payload s)) payload
          arrivals := rfl
    rw [hfold, hstep]
    by_cases hdup : s ∈ segs.map RtSegment.seq
    · rw [if_pos hdup]
      have hfirst : firstArrivals (segs.map RtSegment.seq) (s :: arrivals) =
          firstArrivals (segs.map RtSegment.seq) arrivals := by
        simp only [firstArrivals, List.foldl_cons, if_pos hdup]
      rw [hfirst]
      exact ih hrest segs acks1 ⟨hok.above, hok.within, hok.nodup⟩ hdata
    · rw [if_neg hdup]
      have hfirst : firstArrivals (segs.map RtSegment.seq) (s :: arrivals) =
          firstArrivals ((segs ++ [newSegment s (payload s)]).map RtSegment.seq) arrivals := by
        simp only [firstArrivals, List.foldl_cons, if_neg hdup, List.map_append]
        rfl
      rw [hfirst]
      refine ih hrest _ acks1 (bufferOk_append (payload s) hok hnew hwin hdup) ?_
      intro g hg hgle
      rcases List.mem_append.mp hg with hg | hg
      · exact hdata g hg hgle
      · rw [List.mem_singleton] at hg
        subst hg
        rfl

/-! ### What the drain loop drains -/

/-- **The loop drains a prefix in order.** The number it ends at is as many above the
    first one as there were numbers in order at the front. -/
theorem rtDrainLoop_last (cur : ℕ) (segs : List RtSegment) (t : RtTransport)
    (hcur : t.se.lastRecvCompleteSeq = cur) :
    ∃ k, List.range' (cur + 1) k <+: segs.map RtSegment.seq ∧
      (rtDrainLoop cur segs t).2.se.lastRecvCompleteSeq = cur + k := by
  induction segs generalizing cur t with
  | nil => exact ⟨0, List.nil_prefix, hcur⟩
  | cons s rest ih =>
    unfold rtDrainLoop
    split
    · exact ⟨0, List.nil_prefix, hcur⟩
    · rename_i hseq
      rw [ne_eq, not_not] at hseq
      cases hone : rtDrainOne t s with
      | none => exact ⟨0, List.nil_prefix, hcur⟩
      | some t' =>
        obtain ⟨k, hpre, hlast⟩ := ih (cur + 1) t' (by rw [rtDrainOne_last hone, hseq])
        refine ⟨k + 1, ?_, ?_⟩
        · rw [List.range'_succ, List.map_cons, hseq]
          exact List.cons_prefix_cons.mpr ⟨rfl, hpre⟩
        · rw [show cur + (k + 1) = cur + 1 + k by omega]
          exact hlast

/-- A segment that is not a keep-alive is appended when there is room. -/
theorem rtDrainOne_plain {t : RtTransport} {s : RtSegment}
    (hplain : isKeepAlive t.se.magicReq t.se.magicResp s.data = false)
    (hroom : s.data.1.length ≤ t.se.recvFifo.avail) :
    ∃ t', rtDrainOne t s = some t' ∧
      t'.se.recvFifo.contents = t.se.recvFifo.contents ++ s.data.1 ∧
      t'.se.recvFifo.avail + s.data.1.length = t.se.recvFifo.avail ∧
      t'.se.magicReq = t.se.magicReq ∧ t'.se.magicResp = t.se.magicResp := by
  rw [isKeepAlive, Bool.or_eq_false_iff] at hplain
  obtain ⟨hreq, hresp⟩ := hplain
  obtain ⟨fifo, hw⟩ := t.se.recvFifo.write_fits s.data.1 hroom
  obtain ⟨hcont, hcap, -⟩ := RingBuffer.write_eq_some hw
  have hsize := RingBuffer.write_size hw
  have hold := t.se.recvFifo.avail_add_size
  have hnew := fifo.avail_add_size
  unfold rtDrainOne
  rw [hreq, hresp, hw]
  refine ⟨_, rfl, hcont, ?_, rfl, rfl⟩
  show fifo.avail + s.data.1.length = t.se.recvFifo.avail
  omega

/-- **The loop appends what stands in order at the front**, when there is room, and stops
    before a number that is not in the buffer. -/
theorem rtDrainLoop_deliver {req resp : Sha1Value} {payload : ℕ → SegmentData} (n cur : ℕ)
    {segs : List RtSegment} {t : RtTransport}
    (hmagic : t.se.magicReq = req ∧ t.se.magicResp = resp)
    (hcur : t.se.lastRecvCompleteSeq = cur)
    (hpre : List.range' (cur + 1) n <+: segs.map RtSegment.seq)
    (hdata : ∀ g ∈ segs, g.seq ≤ cur + n → g.data = payload g.seq)
    (hplain : ∀ s, cur < s → s ≤ cur + n → isKeepAlive req resp (payload s) = false)
    (hroom : (concat ((List.range' (cur + 1) n).map payload)).length ≤ t.se.recvFifo.avail)
    (hstop : cur + n + 1 ∉ segs.map RtSegment.seq) :
    (rtDrainLoop cur segs t).2.se.recvFifo.contents =
        t.se.recvFifo.contents ++ concat ((List.range' (cur + 1) n).map payload) ∧
      (rtDrainLoop cur segs t).2.se.lastRecvCompleteSeq = cur + n := by
  -- over the numbers that follow `cur`
  induction n generalizing cur segs t with
  | zero =>
    have hnone : rtDrainLoop cur segs t = (segs, t) := by
      cases segs with
      | nil => rfl
      | cons s rest =>
        unfold rtDrainLoop
        rw [if_pos]
        intro hs
        exact hstop (by rw [List.map_cons, hs]; exact List.mem_cons_self)
    rw [hnone]
    exact ⟨(List.append_nil _).symm, hcur⟩
  | succ n ih =>
    rw [List.range'_succ] at hpre hroom ⊢
    cases segs with
    | nil =>
      rw [List.map_nil, List.prefix_nil] at hpre
      exact absurd hpre (by simp)
    | cons s rest =>
      obtain ⟨hseq, hrest⟩ := List.cons_prefix_cons.mp hpre
      have hsdata : s.data = payload (cur + 1) := by
        rw [hseq]
        exact hdata s List.mem_cons_self (by omega)
      have hsplain : isKeepAlive t.se.magicReq t.se.magicResp s.data = false := by
        rw [hmagic.1, hmagic.2, hsdata]
        exact hplain (cur + 1) (by omega) (by omega)
      have hlen : (concat (((cur + 1) :: List.range' (cur + 1 + 1) n).map payload)).length =
          s.data.1.length + (concat ((List.range' (cur + 1 + 1) n).map payload)).length := by
        rw [hsdata, concat, concat, List.map_cons, List.flatMap_cons, List.length_append]
      rw [hlen] at hroom
      obtain ⟨t', hone, hcont, havail, hreq, hresp⟩ := rtDrainOne_plain hsplain (by omega)
      have hloop : rtDrainLoop cur (s :: rest) t = rtDrainLoop (cur + 1) rest t' := by
        rw [rtDrainLoop, if_neg (by rw [← hseq]; simp), hone]
      obtain ⟨hc, hl⟩ := @ih (cur + 1) rest t'
        ⟨hreq.trans hmagic.1, hresp.trans hmagic.2⟩
        (by rw [rtDrainOne_last hone, hseq]) hrest
        (fun g hg hle => hdata g (List.mem_cons_of_mem s hg) (by omega))
        (fun r hlt hle => hplain r (by omega) (by omega)) (by omega)
        (fun hmem => hstop (by
          rw [show cur + (n + 1) + 1 = cur + 1 + n + 1 by omega, List.map_cons]
          exact List.mem_cons_of_mem _ hmem))
      rw [hloop]
      refine ⟨?_, by omega⟩
      rw [hc, hcont, List.append_assoc, hsdata]
      simp [concat]

/-! ### Completeness of the reorder buffer -/

/-- **The arrivals of the statement.** An established session, whose buffer is in order,
    receives numbers among the next `n` until all of these are there; the payloads are no
    keep-alives and fit `recv_fifo`; the number after the last one is not buffered. -/
structure Arrivals (t : RtTransport) (n : ℕ) (payload : ℕ → SegmentData) (arrivals : List ℕ) :
    Prop where
  established : t.se.status = .established
  window : n ≤ rudpTMaxNumAck
  buffer : BufferOk rudpTMaxNumAck t.endpoint
  buffered : ∀ g ∈ t.se.recvSegments, g.seq ≤ t.se.lastRecvCompleteSeq + n →
    g.data = payload g.seq
  next_free : t.se.lastRecvCompleteSeq + n + 1 ∉ t.se.recvSegments.map RtSegment.seq
  plain : ∀ s, t.se.lastRecvCompleteSeq < s → s ≤ t.se.lastRecvCompleteSeq + n →
    isKeepAlive t.se.magicReq t.se.magicResp (payload s) = false
  nonempty : ∀ s, t.se.lastRecvCompleteSeq < s → s ≤ t.se.lastRecvCompleteSeq + n →
    1 ≤ (payload s).1.length
  mem : ∀ s ∈ arrivals, t.se.lastRecvCompleteSeq < s ∧ s ≤ t.se.lastRecvCompleteSeq + n
  complete : ∀ s, t.se.lastRecvCompleteSeq < s → s ≤ t.se.lastRecvCompleteSeq + n →
    s ∈ t.se.recvSegments.map RtSegment.seq ∨ s ∈ arrivals
  room : (concat ((List.range' (t.se.lastRecvCompleteSeq + 1) n).map payload)).length ≤
    t.se.recvFifo.avail

/-- The drain delivered the next `n` numbers of `t`: their payloads are appended in
    increasing order, each once, and the session is `n` numbers further. -/
def Delivered (t : RtTransport) (n : ℕ) (payload : ℕ → SegmentData) (t' : RtTransport) : Prop :=
  t'.se.recvFifo.contents = t.se.recvFifo.contents ++
      concat ((List.range' (t.se.lastRecvCompleteSeq + 1) n).map payload) ∧
    t'.se.lastRecvCompleteSeq = t.se.lastRecvCompleteSeq + n

/-- Only numbers of the window below `hi` are added to the buffer. -/
theorem mem_firstArrivals {buffered arrivals : List ℕ} {s : ℕ}
    (h : s ∈ firstArrivals buffered arrivals) : s ∈ buffered ∨ s ∈ arrivals := by
  induction arrivals generalizing buffered with
  | nil => exact Or.inl h
  | cons a arrivals ih =>
    rw [firstArrivals, List.foldl_cons] at h
    rcases ih h with hb | ha
    · split at hb
      · exact Or.inl hb
      · rcases List.mem_append.mp hb with hb | hb
        · exact Or.inl hb
        · rw [List.mem_singleton] at hb
          exact Or.inr (hb ▸ List.mem_cons_self)
    · exact Or.inr (List.mem_cons_of_mem a ha)

/-- **When one drain delivers everything.** Once all of the next `n` numbers have arrived,
    one drain delivers them exactly when the numbers of the buffer, in the order of their
    first arrival, begin with them in increasing order. -/
theorem reorder_complete_iff (t : RtTransport) (n : ℕ) (payload : ℕ → SegmentData)
    (arrivals : List ℕ) (h : Arrivals t n payload arrivals) :
    Delivered t n payload (rtDrain (rtReceiveAll t payload arrivals)) ↔
      List.range' (t.se.lastRecvCompleteSeq + 1) n <+:
        firstArrivals (t.se.recvSegments.map RtSegment.seq) arrivals := by
  obtain ⟨segs, acks, hrecv, hseqs, hdata⟩ := rtReceiveAll_spec t payload
    (t.se.lastRecvCompleteSeq + n) (Nat.add_le_add_left h.window _) arrivals h.mem
    t.se.recvSegments t.se.replyAcks h.buffer h.buffered
  have hrecv' : rtReceiveAll t payload arrivals = withBuffer t segs acks := hrecv
  have hstop : t.se.lastRecvCompleteSeq + n + 1 ∉ segs.map RtSegment.seq := by
    rw [hseqs]
    intro hmem
    rcases mem_firstArrivals hmem with hb | ha
    · exact h.next_free hb
    · have := (h.mem _ ha).2
      omega
  rw [hrecv', ← hseqs]
  constructor
  · rintro ⟨-, hlast⟩
    obtain ⟨k, hpre, hk⟩ :=
      rtDrainLoop_last t.se.lastRecvCompleteSeq segs (withBuffer t segs acks) rfl
    have hlast' : (rtDrainLoop t.se.lastRecvCompleteSeq segs
        (withBuffer t segs acks)).2.se.lastRecvCompleteSeq = t.se.lastRecvCompleteSeq + n := hlast
    have hkn : k = n := by omega
    rw [← hkn]
    exact hpre
  · intro hpre
    exact rtDrainLoop_deliver n t.se.lastRecvCompleteSeq (t := withBuffer t segs acks)
      ⟨rfl, rfl⟩ rfl hpre hdata h.plain h.room hstop

/-- A new session, established, with one-byte payloads. -/
def samplePayload (s : ℕ) : SegmentData := ⟨[UInt8.ofNat s], by rw [List.length_singleton]; decide⟩

/-- Any arrivals of the numbers 1 and 2, with any duplicates. -/
theorem sample_arrivals {arrivals : List ℕ} (hmem : ∀ s ∈ arrivals, 0 < s ∧ s ≤ 2)
    (h1 : 1 ∈ arrivals) (h2 : 2 ∈ arrivals) :
    Arrivals (rtStart sampleConnect .established) 2 samplePayload arrivals where
  established := rfl
  window := by decide
  buffer := BufferOk.of_fresh (rtStart_fresh _ _)
  buffered := fun g hg => absurd hg List.not_mem_nil
  next_free := List.not_mem_nil
  plain := fun _ _ _ => rfl
  nonempty := fun _ _ _ => Nat.le_refl 1
  mem := fun s hs => ⟨(hmem s hs).1, by
    have := (hmem s hs).2
    show s ≤ 0 + 2
    omega⟩
  complete := by
    intro s hlt hle
    have hlt' : 0 < s := hlt
    have hle' : s ≤ 0 + 2 := hle
    right
    obtain rfl | rfl : s = 1 ∨ s = 2 := by omega
    · exact h1
    · exact h2
  room := by decide

/-- Arrivals in order, with a duplicate. -/
theorem reorder_complete_in_order :
    Delivered (rtStart sampleConnect .established) 2 samplePayload
      (rtDrain (rtReceiveAll (rtStart sampleConnect .established) samplePayload [1, 1, 2])) :=
  (reorder_complete_iff (rtStart sampleConnect .established) 2 samplePayload [1, 1, 2]
    (sample_arrivals (by decide) (by decide) (by decide))).mpr (by decide)

/-- Two segments that arrive in the other order are both there and neither is drained. -/
theorem reorder_stalls :
    Arrivals (rtStart sampleConnect .established) 2 samplePayload [2, 1] ∧
      ¬ Delivered (rtStart sampleConnect .established) 2 samplePayload
        (rtDrain (rtReceiveAll (rtStart sampleConnect .established) samplePayload [2, 1])) := by
  refine ⟨sample_arrivals (by decide) (by decide) (by decide), ?_⟩
  rintro ⟨-, hlast⟩
  have hzero : (rtDrain (rtReceiveAll (rtStart sampleConnect .established) samplePayload
      [2, 1])).se.lastRecvCompleteSeq = 0 := by decide
  rw [hzero] at hlast
  exact absurd hlast (by decide)

end SoftEther.Transport
