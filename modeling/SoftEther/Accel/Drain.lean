import SoftEther.Accel.LossDetection
import SoftEther.Packet.Alignment

namespace SoftEther.Accel

open Lib

/-!
# From the receive ring to the connection

`rudp_process_inner` stores the blocks of accepted packets in a ring of 256 slots, `rudp_recv`
takes the oldest one out, and `drain_rudp_into_recv_queue` moves blocks into the receive queue
of the connection.

* `rudpRecv`, `drainRudpIntoRecvQueue` — the two ways out of the ring;
* `RxEvent`, `rxStep` — packets, reads and drains in any order, and frames leaving the
  connection's queue;
* `Fate`, `runLog` — what became of the block of each accepted packet;
* `receiveStep_ring`, `rudpRecv_ring`, `drainLoop_ring` — the ring as a list;
* `ring_and_drain` — the ring stays well formed, the frames handed out are the stored blocks in
  their order, and every overflow is counted.

A block of length 0, which only decompression can produce, is taken off the ring by the next
read and is no frame for anybody.
-/

/-! ### `rudp_recv` -/

/-- Give up the slot at the head. -/
def RecvQueue.pop (q : RecvQueue) : RecvQueue where
  slots := q.slots
  head := (q.head + 1) % rudpRecvQueueSize
  tail := q.tail
  count := q.count - 1

/-- What a call of `rudp_recv` leaves behind: its return value, the `*len` bytes of the
    caller's buffer, and the context. -/
structure RudpRecv where
  rc : ℤ
  data : List UInt8
  ctx : RudpContext

/-- `rudp_recv` with room for `maxLen` bytes, on a context that is not being destroyed. -/
def rudpRecv (ctx : RudpContext) (maxLen : ℕ) : RudpRecv :=
  if ctx.recvQueue.count ≤ 0 then ⟨0, [], ctx⟩
  else
    let entry := (ctx.recvQueue.slots ctx.recvQueue.head).val
    if entry.length > maxLen then ⟨-1, [], ctx⟩
    else ⟨entry.length, entry, { ctx with recvQueue := ctx.recvQueue.pop }⟩

/-! ### `drain_rudp_into_recv_queue` -/

/-- The frames a drain has moved, and what it leaves behind. -/
structure Drained where
  moved : List (List UInt8)
  ctx : RudpContext
  recvQueue : Packet.RecvQueue

/-- The loop, with the number of frames it may still move. -/
def drainLoop : ℕ → RudpContext → Packet.RecvQueue → Drained
  | 0, ctx, q => ⟨[], ctx, q⟩
  | n + 1, ctx, q =>
    if h : q.count < Packet.recvQueueSize then
      let r := rudpRecv ctx Packet.maxQueuedFrame
      if r.rc ≤ 0 ∨ r.data.length = 0 then ⟨[], r.ctx, q⟩
      else
        let copyLen :=
          if r.data.length < Packet.maxQueuedFrame then r.data.length else Packet.maxQueuedFrame
        let frame := r.data.take copyLen
        let rest := drainLoop n r.ctx (q.push frame h)
        ⟨frame :: rest.moved, rest.ctx, rest.recvQueue⟩
    else ⟨[], ctx, q⟩

/-- The packets that `rudp_poll` reads, then the loop. -/
def drainRudpIntoRecvQueue (z : Zlib) (ctx : RudpContext) (q : Packet.RecvQueue)
    (polled : List Arrival) (maxFrames : ℕ) : Drained :=
  drainLoop maxFrames (run (receiveStep z) ctx polled) q

/-! ### Runs -/

/-- The two queues, and the frames handed out so far. -/
structure RxLink where
  ctx : RudpContext
  recvQueue : Packet.RecvQueue
  handed : List (List UInt8)

/-- What happens to the receiver of a link. -/
inductive RxEvent
  | packet (a : Arrival)
  | recv (maxLen : ℕ)
  | drain (polled : List Arrival) (maxFrames : ℕ)
  | take

/-- One event. -/
def rxStep (z : Zlib) (s : RxLink) : RxEvent → RxLink
  | .packet a => { s with ctx := receiveStep z s.ctx a }
  | .recv maxLen =>
    let r := rudpRecv s.ctx maxLen
    { s with ctx := r.ctx, handed := s.handed ++ if r.rc > 0 then [r.data] else [] }
  | .drain polled maxFrames =>
    let d := drainRudpIntoRecvQueue z s.ctx s.recvQueue polled maxFrames
    { ctx := d.ctx, recvQueue := d.recvQueue, handed := s.handed ++ d.moved }
  | .take =>
    if h : 0 < s.recvQueue.count then { s with recvQueue := s.recvQueue.pop h } else s

/-! ### What becomes of a block -/

/-- What becomes of a packet: it is stored, or it does not fit the block or the ring. -/
inductive Fate
  | stored
  | tooLong
  | ringFull
  deriving DecidableEq, Repr

/-- The block of a packet, if the packet is accepted and has one. -/
def blockOf (z : Zlib) (ctx : RudpContext) (a : Arrival) : Option (List UInt8) :=
  match rudpParseInner ctx.myCookie a.verifyPadding a.buf with
  | none => none
  | some p =>
    if !inWindow ctx.lastRecvYourTick p.myTick then none
    else if p.data.length > 0 then
      if isCompressed p.flag then uncompressData z p.data rudpCompressBufSize else some p.data
    else none

/-- What becomes of a block when `count` blocks are in the ring. -/
def fate (count : ℕ) (block : List UInt8) : Fate :=
  if block.length ≤ rudpMaxPayloadSize then
    if count < rudpRecvQueueSize then .stored else .ringFull
  else .tooLong

/-- The block of one packet and its fate. -/
def arrivalLog (z : Zlib) (ctx : RudpContext) (a : Arrival) : List (List UInt8 × Fate) :=
  match blockOf z ctx a with
  | none => []
  | some block => [(block, fate ctx.recvQueue.count block)]

/-- The blocks of packets that are read one after the other. -/
def pollLog (z : Zlib) : RudpContext → List Arrival → List (List UInt8 × Fate)
  | _, [] => []
  | ctx, a :: as => arrivalLog z ctx a ++ pollLog z (receiveStep z ctx a) as

/-- The packets of an event, each with its fate. -/
def eventLog (z : Zlib) (s : RxLink) : RxEvent → List (List UInt8 × Fate)
  | .packet a => arrivalLog z s.ctx a
  | .drain polled _ => pollLog z s.ctx polled
  | .recv _ => []
  | .take => []

/-- The blocks of all accepted packets of a run, in the order of their arrival. -/
def runLog (z : Zlib) : RxLink → List RxEvent → List (List UInt8 × Fate)
  | _, [] => []
  | s, e :: es => eventLog z s e ++ runLog z (rxStep z s e) es

/-- The blocks that were not dropped. -/
def stored (log : List (List UInt8 × Fate)) : List (List UInt8) :=
  (log.filter (·.2 = .stored)).map Prod.fst

/-- The number of blocks that were dropped because the ring was full. -/
def overflows (log : List (List UInt8 × Fate)) : ℕ := log.countP (·.2 = .ringFull)

theorem stored_append (l l' : List (List UInt8 × Fate)) :
    stored (l ++ l') = stored l ++ stored l' := by
  simp only [stored, List.filter_append, List.map_append]

theorem overflows_append (l l' : List (List UInt8 × Fate)) :
    overflows (l ++ l') = overflows l + overflows l' := List.countP_append

/-! ### The ring as a list -/

/-- The blocks waiting in the ring, oldest first. -/
def pending (ctx : RudpContext) : List (List UInt8) := ctx.recvQueue.blocks.map Subtype.val

theorem RecvQueue.pop_ok {q : RecvQueue} (h : q.Ok) (hpos : 0 < q.count) : q.pop.Ok where
  head_lt := Nat.mod_lt _ (by decide)
  count_le := Nat.le_trans (Nat.sub_le _ _) h.count_le
  tail_eq := by
    have htail := h.tail_eq
    show q.tail = ((q.head + 1) % rudpRecvQueueSize + (q.count - 1)) % rudpRecvQueueSize
    rw [htail, Nat.mod_add_mod]
    congr 1
    omega

theorem RecvQueue.blocks_pop {q : RecvQueue} (h : q.Ok) (hpos : 0 < q.count) :
    q.blocks = q.slots q.head :: q.pop.blocks := by
  obtain ⟨n, hn⟩ : ∃ n, q.count = n + 1 := ⟨q.count - 1, by omega⟩
  have hpop : q.pop.count = n := by
    show q.count - 1 = n
    omega
  unfold RecvQueue.blocks
  rw [hn, hpop, List.range_succ_eq_map, List.map_cons, List.map_map, Nat.add_zero,
    Nat.mod_eq_of_lt h.head_lt]
  congr 1
  apply List.map_congr_left
  intro i _
  show q.slots ((q.head + (i + 1)) % rudpRecvQueueSize) =
    q.slots (((q.head + 1) % rudpRecvQueueSize + i) % rudpRecvQueueSize)
  rw [Nat.mod_add_mod]
  congr 2
  omega

/-- What a step may do to the ring: it stays well formed, `log` is stored in it, and the
    overflows of `log` are counted. -/
structure RingGains (ctx ctx' : RudpContext) (log : List (List UInt8 × Fate)) : Prop where
  ok : ctx'.recvQueue.Ok
  pending : pending ctx' = pending ctx ++ stored log
  overflows : ctx'.recvQueueOverflowCount = ctx.recvQueueOverflowCount + overflows log

/-- Storing a block, or dropping it. -/
theorem rudpQueueBlock_ring (ctx : RudpContext) (h : ctx.recvQueue.Ok) (block : List UInt8) :
    RingGains ctx (rudpQueueBlock ctx block) [(block, fate ctx.recvQueue.count block)] := by
  unfold rudpQueueBlock fate
  by_cases hlen : block.length ≤ rudpMaxPayloadSize
  · rw [dif_pos hlen, if_pos hlen]
    by_cases hroom : ctx.recvQueue.count < rudpRecvQueueSize
    · rw [if_pos hroom, if_pos hroom]
      refine ⟨RecvQueue.push_ok h hroom _, ?_, rfl⟩
      show (ctx.recvQueue.push ⟨block, hlen⟩).blocks.map Subtype.val = _
      rw [RecvQueue.push_blocks h hroom, List.map_append]
      rfl
    · rw [if_neg hroom, if_neg hroom]
      exact ⟨h, (List.append_nil _).symm, rfl⟩
  · rw [dif_neg hlen, if_neg hlen]
    exact ⟨h, (List.append_nil _).symm, rfl⟩

/-- The ring and its overflow counter are as they were. -/
structure SameRing (ctx ctx' : RudpContext) : Prop where
  recvQueue : ctx'.recvQueue = ctx.recvQueue
  recvQueueOverflowCount : ctx'.recvQueueOverflowCount = ctx.recvQueueOverflowCount

variable {ctx : RudpContext}

theorem SameRing.gains {ctx' : RudpContext} (h : ctx.recvQueue.Ok) (hsame : SameRing ctx ctx') :
    RingGains ctx ctx' [] where
  ok := hsame.recvQueue ▸ h
  pending := by
    rw [pending, pending, hsame.recvQueue]
    exact (List.append_nil _).symm
  overflows := hsame.recvQueueOverflowCount

theorem rudpRecordReceive_ring (ctx : RudpContext) : SameRing ctx (rudpRecordReceive ctx) := by
  unfold rudpRecordReceive
  split
  · exact ⟨rfl, rfl⟩
  · exact ⟨rfl, rfl⟩

theorem rudpDetectGap_ring (ctx : RudpContext) (p : InnerPacket) :
    SameRing ctx (rudpDetectGap ctx p) := by
  unfold rudpDetectGap
  split
  · exact ⟨rfl, rfl⟩
  · exact ⟨rfl, rfl⟩

/-- Accepting a packet does not touch the ring. -/
theorem rudpAccept_ring (ctx : RudpContext) (source : SockAddr) (p : InnerPacket) :
    SameRing ctx (rudpAccept ctx source p) := by
  have hgap := rudpDetectGap_ring (rudpRecordTicks ctx p) p
  unfold rudpAccept
  dsimp only
  generalize rudpDetectGap (rudpRecordTicks ctx p) p = c at hgap ⊢
  exact ⟨(rudpRecordReceive_ring _).recvQueue.trans hgap.recvQueue,
    (rudpRecordReceive_ring _).recvQueueOverflowCount.trans hgap.recvQueueOverflowCount⟩

/-- **One packet.** The ring gains what the log says. -/
theorem receiveStep_ring (z : Zlib) (h : ctx.recvQueue.Ok) (a : Arrival) :
    RingGains ctx (receiveStep z ctx a) (arrivalLog z ctx a) := by
  unfold receiveStep receive rudpProcessInner arrivalLog blockOf
  cases hparse : rudpParseInner ctx.myCookie a.verifyPadding a.buf with
  | none => exact SameRing.gains h ⟨rfl, rfl⟩
  | some p =>
    dsimp only
    have hwin : rudpInWindow { ctx with now := a.now } p.myTick =
        inWindow ctx.lastRecvYourTick p.myTick := rfl
    rw [hwin]
    cases inWindow ctx.lastRecvYourTick p.myTick with
    | false => exact SameRing.gains h ⟨rfl, rfl⟩
    | true =>
      have haccept := rudpAccept_ring { ctx with now := a.now } a.source p
      have hsame : SameRing ctx (rudpAccept { ctx with now := a.now } a.source p) :=
        ⟨haccept.recvQueue, haccept.recvQueueOverflowCount⟩
      generalize rudpAccept { ctx with now := a.now } a.source p = c at hsame ⊢
      obtain ⟨hring, hcount⟩ := hsame
      have hblock : ∀ block, RingGains ctx (rudpQueueBlock c block)
          [(block, fate ctx.recvQueue.count block)] := by
        intro block
        have hstep := rudpQueueBlock_ring c (by rw [hring]; exact h) block
        rw [hring] at hstep
        refine ⟨hstep.ok, ?_, ?_⟩
        · rw [hstep.pending, pending, hring]
          rfl
        · rw [hstep.overflows, hcount]
      simp only [Bool.not_true, Bool.false_eq_true, if_false]
      unfold rudpQueueData
      by_cases hlen : p.data.length > 0
      · rw [if_pos hlen, if_pos hlen]
        cases isCompressed p.flag with
        | false => exact hblock p.data
        | true =>
          simp only [if_true]
          cases uncompressData z p.data rudpCompressBufSize with
          | none => exact SameRing.gains h ⟨hring, hcount⟩
          | some block => exact hblock block
      · rw [if_neg hlen, if_neg hlen]
        exact SameRing.gains h ⟨hring, hcount⟩

theorem RingGains.trans {c₁ c₂ c₃ : RudpContext} {l l' : List (List UInt8 × Fate)}
    (h : RingGains c₁ c₂ l) (h' : RingGains c₂ c₃ l') : RingGains c₁ c₃ (l ++ l') where
  ok := h'.ok
  pending := by rw [h'.pending, h.pending, stored_append, List.append_assoc]
  overflows := by rw [h'.overflows, h.overflows, overflows_append, Nat.add_assoc]

/-- **Packets one after the other.** -/
theorem poll_ring (z : Zlib) (h : ctx.recvQueue.Ok) (as : List Arrival) :
    RingGains ctx (run (receiveStep z) ctx as) (pollLog z ctx as) := by
  induction as generalizing ctx with
  | nil => exact ⟨h, (List.append_nil _).symm, rfl⟩
  | cons a as ih =>
    have hstep := receiveStep_ring z h a
    exact hstep.trans (ih hstep.ok)

/-! ### Reads and drains -/

/-- The blocks that are frames. -/
def frames (blocks : List (List UInt8)) : List (List UInt8) := blocks.filter (· ≠ [])

theorem frames_append (l l' : List (List UInt8)) : frames (l ++ l') = frames l ++ frames l' :=
  List.filter_append ..

/-- What a read may do to the ring: it stays well formed, loses `out` at its front, apart from
    blocks of length 0, and counts no overflow. -/
structure RingLoses (ctx ctx' : RudpContext) (out : List (List UInt8)) : Prop where
  ok : ctx'.recvQueue.Ok
  pending : frames (pending ctx) = out ++ frames (Accel.pending ctx')
  overflows : ctx'.recvQueueOverflowCount = ctx.recvQueueOverflowCount

theorem RingLoses.refl (h : ctx.recvQueue.Ok) : RingLoses ctx ctx [] :=
  ⟨h, rfl, rfl⟩

/-- **`rudp_recv`.** The frame it returns is the oldest one of the ring. -/
theorem rudpRecv_ring (h : ctx.recvQueue.Ok) (maxLen : ℕ) : RingLoses ctx (rudpRecv ctx maxLen).ctx
      (if (rudpRecv ctx maxLen).rc > 0 then [(rudpRecv ctx maxLen).data] else []) := by
  unfold rudpRecv
  by_cases hempty : ctx.recvQueue.count ≤ 0
  · rw [if_pos hempty]
    exact .refl h
  · rw [if_neg hempty]
    dsimp only
    have hblocks := RecvQueue.blocks_pop h (by omega)
    generalize ctx.recvQueue.slots ctx.recvQueue.head = entry at hblocks ⊢
    by_cases hlen : entry.val.length > maxLen
    · rw [if_pos hlen]
      exact .refl h
    · rw [if_neg hlen]
      refine ⟨RecvQueue.pop_ok h (by omega), ?_, rfl⟩
      show frames (ctx.recvQueue.blocks.map Subtype.val) =
        (if (entry.val.length : ℤ) > 0 then [entry.val] else []) ++
          frames (ctx.recvQueue.pop.blocks.map Subtype.val)
      rw [hblocks, List.map_cons, frames, List.filter_cons]
      cases entry.val with
      | nil => rfl
      | cons b data =>
        rw [if_pos (by simp), if_pos (by simp)]
        rfl

/-- What a read returns fits a slot of the connection's queue, and is not empty when the return
    value is positive. -/
theorem rudpRecv_data (ctx : RudpContext) (maxLen : ℕ) :
    (rudpRecv ctx maxLen).data.length ≤ rudpMaxPayloadSize ∧
      ((rudpRecv ctx maxLen).rc > 0 → 0 < (rudpRecv ctx maxLen).data.length) := by
  unfold rudpRecv
  split
  · exact ⟨Nat.zero_le _, fun h => absurd h (Int.lt_irrefl 0)⟩
  · dsimp only
    split
    · exact ⟨Nat.zero_le _, fun h => absurd h (by simp)⟩
    · exact ⟨(ctx.recvQueue.slots ctx.recvQueue.head).property, fun h => Int.natCast_pos.mp h⟩

/-- **The drain loop.** The frames it moves are the oldest ones of the ring, and stand behind
    what was in the connection's queue. -/
theorem drainLoop_ring (n : ℕ) (h : ctx.recvQueue.Ok) (q : Packet.RecvQueue) :
    RingLoses ctx (drainLoop n ctx q).ctx (drainLoop n ctx q).moved ∧
      (drainLoop n ctx q).recvQueue.contents = q.contents ++ (drainLoop n ctx q).moved := by
  induction n generalizing ctx q with
  | zero => exact ⟨.refl h, (List.append_nil _).symm⟩
  | succ n ih =>
    rw [drainLoop]
    by_cases hroom : q.count < Packet.recvQueueSize
    · rw [dif_pos hroom]
      have hrecv := rudpRecv_ring h Packet.maxQueuedFrame
      obtain ⟨hlen, hpos⟩ := rudpRecv_data ctx Packet.maxQueuedFrame
      generalize rudpRecv ctx Packet.maxQueuedFrame = r at hrecv hlen hpos ⊢
      by_cases hstop : r.rc ≤ 0 ∨ r.data.length = 0
      · -- nothing there, or a block of length 0
        rw [if_pos hstop]
        refine ⟨?_, (List.append_nil _).symm⟩
        have hrc : ¬ r.rc > 0 := fun hrc => by
          have := hpos hrc
          omega
        rw [if_neg hrc] at hrecv
        exact hrecv
      · rw [if_neg hstop]
        rw [if_pos (by omega)] at hrecv
        have hslot : rudpMaxPayloadSize < Packet.maxQueuedFrame := by decide
        have hcopy : r.data.take (if r.data.length < Packet.maxQueuedFrame then r.data.length
            else Packet.maxQueuedFrame) = r.data := by
          rw [if_pos (by omega), List.take_length]
        dsimp only
        rw [hcopy]
        obtain ⟨hrest, hqueue⟩ := ih hrecv.ok (q.push r.data hroom)
        refine ⟨⟨hrest.ok, ?_, hrest.overflows.trans hrecv.overflows⟩, ?_⟩
        · rw [hrecv.pending, hrest.pending]
          rfl
        · rw [hqueue, Packet.RecvQueue.contents_push, List.append_assoc]
          rfl
    · rw [dif_neg hroom]
      exact ⟨.refl h, (List.append_nil _).symm⟩

/-! ### Whole runs -/

/-- What is left to hand out, behind what has been handed out. -/
def RxLink.outAndPending (s : RxLink) : List (List UInt8) := s.handed ++ frames (pending s.ctx)

/-- **One event.** -/
theorem rxStep_sound (z : Zlib) {s : RxLink} (h : s.ctx.recvQueue.Ok) (e : RxEvent) :
    (rxStep z s e).ctx.recvQueue.Ok ∧
      (rxStep z s e).outAndPending = s.outAndPending ++ frames (stored (eventLog z s e)) ∧
      (rxStep z s e).ctx.recvQueueOverflowCount =
        s.ctx.recvQueueOverflowCount + overflows (eventLog z s e) := by
  -- a read hands out what the ring loses
  have hloses : ∀ {ctx : RudpContext} {out : List (List UInt8)}, RingLoses s.ctx ctx out →
      s.handed ++ out ++ frames (pending ctx) = s.outAndPending ++ frames (stored []) := by
    intro ctx out hlost
    rw [RxLink.outAndPending, hlost.pending, List.append_assoc]
    exact (List.append_nil _).symm
  cases e with
  | packet a =>
    have hgain := receiveStep_ring z h a
    refine ⟨hgain.ok, ?_, hgain.overflows⟩
    show s.handed ++ frames (pending (receiveStep z s.ctx a)) = _
    rw [hgain.pending, frames_append, ← List.append_assoc]
    rfl
  | recv maxLen =>
    have hlost := rudpRecv_ring h maxLen
    exact ⟨hlost.ok, hloses hlost, hlost.overflows⟩
  | drain polled maxFrames =>
    have hgain := poll_ring z h polled
    have hlost := (drainLoop_ring maxFrames hgain.ok s.recvQueue).1
    refine ⟨hlost.ok, ?_, hlost.overflows.trans hgain.overflows⟩
    show s.handed ++ (drainLoop maxFrames (run (receiveStep z) s.ctx polled) s.recvQueue).moved ++
      frames (pending (drainLoop maxFrames (run (receiveStep z) s.ctx polled) s.recvQueue).ctx) = _
    rw [List.append_assoc, ← hlost.pending, hgain.pending, frames_append, ← List.append_assoc]
    rfl
  | take =>
    rw [rxStep]
    split <;> exact ⟨h, (List.append_nil _).symm, rfl⟩

/-- **What the ring and the drain promise**, of one run. -/
structure RingAndDrain (z : Zlib) (s : RxLink) (es : List RxEvent) : Prop where
  ring : Always (rxStep z) (fun s => s.ctx.recvQueue.Ok) s es
  delivered : (run (rxStep z) s es).outAndPending =
    s.outAndPending ++ frames (stored (runLog z s es))
  counted : (run (rxStep z) s es).ctx.recvQueueOverflowCount =
    s.ctx.recvQueueOverflowCount + overflows (runLog z s es)
  queued : ∀ polled maxFrames, Along (rxStep z) (fun s e => e = .drain polled maxFrames →
    ∃ moved, (rxStep z s e).handed = s.handed ++ moved ∧
      (rxStep z s e).recvQueue.contents = s.recvQueue.contents ++ moved) s es

/-- **The receive ring and the drain.** For every interleaving of packets, reads, drains and
    frames taken from the connection: the ring stays well formed; the frames handed out, and
    behind them those still in the ring, are the blocks of length at least 1 that were not
    dropped, in the order of arrival and each once; every block dropped because the ring was
    full is counted once; and what a drain hands out stands at the end of the connection's
    queue. -/
theorem ring_and_drain (z : Zlib) (s : RxLink) (h : s.ctx.recvQueue.Ok) (es : List RxEvent) :
    RingAndDrain z s es := by
  have hok : ∀ s : RxLink, s.ctx.recvQueue.Ok → ∀ e, (rxStep z s e).ctx.recvQueue.Ok :=
    fun s hs e => (rxStep_sound z hs e).1
  have hrun : (run (rxStep z) s es).outAndPending =
        s.outAndPending ++ frames (stored (runLog z s es)) ∧
      (run (rxStep z) s es).ctx.recvQueueOverflowCount =
        s.ctx.recvQueueOverflowCount + overflows (runLog z s es) := by
    induction es generalizing s with
    | nil => exact ⟨(List.append_nil _).symm, rfl⟩
    | cons e es ih =>
      obtain ⟨hs, hout, hcount⟩ := rxStep_sound z h e
      obtain ⟨houts, hcounts⟩ := ih (rxStep z s e) hs
      rw [run_cons, runLog, stored_append, frames_append, overflows_append]
      refine ⟨?_, ?_⟩
      · rw [houts, hout, List.append_assoc]
      · rw [hcounts, hcount, Nat.add_assoc]
  refine ⟨?_, hrun.1, hrun.2, ?_⟩
  · exact always_of_along (I := fun s => s.ctx.recvQueue.Ok) (fun s e hs _ => hok s hs e)
      (fun _ => id) (along_true (rxStep z) s es) h
  · intro polled maxFrames
    clear hrun
    induction es generalizing s with
    | nil => trivial
    | cons e es ih =>
      refine ⟨?_, ih (rxStep z s e) (hok s h e)⟩
      rintro rfl
      have hgain := poll_ring z h polled
      exact ⟨_, rfl, (drainLoop_ring maxFrames hgain.ok s.recvQueue).2⟩

/-! ### A block of length 0 -/

/-- zlib on the stream that stands for no data; other calls fail. -/
def emptyStreamZlib : Zlib where
  compress2 := fun _ _ => none
  uncompress := fun data _ =>
    if data = [0x78, 0x9c, 0x03, 0x00, 0x00, 0x00, 0x00, 0x01] then some [] else none

/-- A packet of the V2 format for `sampleContext` with a compressed payload of no data. -/
def emptyPayload : Arrival where
  now := 1000
  buf := beBytes 4 5 ++ beBytes 8 20000 ++ beBytes 8 0 ++ beBytes 2 8 ++ [rudpFlagCompressed] ++
    [0x78, 0x9c, 0x03, 0x00, 0x00, 0x00, 0x00, 0x01]
  source := ⟨false, 9, 9⟩
  verifyPadding := false

/-- Both queues empty. -/
def sampleLink : RxLink where
  ctx := sampleContext
  recvQueue := .empty
  handed := []

theorem sampleLink_ok : sampleLink.ctx.recvQueue.Ok := ⟨by decide, by decide, rfl⟩

/-- A ring with room for two blocks: it holds 254 blocks of one byte, from slot 200 on. -/
def nearlyFull : RxLink :=
  { sampleLink with ctx := { sampleContext with
      recvQueue := ⟨fun i => ⟨[UInt8.ofNat i], Nat.le_of_ble_eq_true rfl⟩, 200, 198, 254⟩ } }

/-- A packet of the V2 format for `sampleContext` with a payload of one byte. -/
def payloadAt (tick : ℕ) (byte : UInt8) : Arrival :=
  { keepaliveAt tick with
    buf := beBytes 4 5 ++ beBytes 8 tick ++ beBytes 8 0 ++ beBytes 2 1 ++ [0, byte] }

/-- Three packets for a ring with room for two, a drain of three frames, a frame taken from the
    connection, and a read. -/
def overfull : List RxEvent :=
  [.packet (payloadAt 20000 1), .packet (payloadAt 20100 2), .packet (payloadAt 20200 3),
    .drain [] 3, .take, .recv 1500]

/-- The third block is dropped and counted; four of the 256 are handed out. -/
theorem ring_and_drain_sample :
    RingAndDrain headerZlib nearlyFull overfull ∧
      runLog headerZlib nearlyFull overfull =
        [([1], .stored), ([2], .stored), ([3], .ringFull)] ∧
      (run (rxStep headerZlib) nearlyFull overfull).handed = [[200], [201], [202], [203]] ∧
      (run (rxStep headerZlib) nearlyFull overfull).ctx.recvQueue.count = 252 :=
  ⟨ring_and_drain headerZlib nearlyFull ⟨by decide, by decide, rfl⟩ overfull,
    by decide +kernel, by decide +kernel, by decide +kernel⟩

/-- The empty block is accepted and stored, and a read takes it off the ring without handing it
    out. -/
theorem empty_block_lost :
    ¬ ∀ (z : Zlib) (s : RxLink), s.ctx.recvQueue.Ok → ∀ es : List RxEvent,
      (run (rxStep z) s es).handed ++ pending (run (rxStep z) s es).ctx =
        s.handed ++ pending s.ctx ++ stored (runLog z s es) := by
  intro h
  have hlost := h emptyStreamZlib sampleLink sampleLink_ok
    [.packet emptyPayload, .drain [] 64]
  exact absurd hlost (by decide)

end SoftEther.Accel
