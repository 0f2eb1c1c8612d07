import SoftEther.Packet.Receive

namespace SoftEther.Packet

open Lib

/-!
# Message boundaries

A stream of encoded messages is read by `fillRecvQueue` and `softetherReceivePacket`, in any
order, while the consumer empties the queue.

* `Message`, `Message.encode` — the block format;
* `keptBlocks` — the blocks a queue with some free slots takes;
* `FillsWhole`, `ReadsWhole` — when one call takes one message;
* `fillRecvQueue_aligned_iff`, `receivePacket_aligned_iff` — and only then;
* `rx_alignment_iff` — the stream stays at a boundary, and the queue gets the blocks as they
  were sent, exactly when every call meets the condition.
-/

/-! ### The format -/

/-- A message whose counts and sizes fit their fields; the count of a batch is not the magic
    number. -/
inductive Message
  | data (blocks : List (List UInt8)) (count_lt : blocks.length < keepAliveMagic)
      (size_lt : ∀ b ∈ blocks, b.length < 2 ^ 32)
  | keepAlive (padding : List UInt8) (size_lt : padding.length < 2 ^ 32)

/-- A block with its size. -/
def encodeBlock (block : List UInt8) : List UInt8 := beBytes 4 block.length ++ block

/-- The bytes of a message. -/
def Message.encode : Message → List UInt8
  | .data blocks _ _ => beBytes 4 blocks.length ++ blocks.flatMap encodeBlock
  | .keepAlive padding _ => keepAliveBlock padding

/-- The blocks that a queue with `room` free slots takes: not the empty ones, not those that
    exceed a slot, and none once the queue is full. -/
def keptBlocks : ℕ → List (List UInt8) → List (List UInt8)
  | _, [] => []
  | room, b :: blocks =>
    if 0 < b.length ∧ b.length ≤ maxQueuedFrame ∧ 0 < room then
      b :: keptBlocks (room - 1) blocks
    else keptBlocks room blocks

/-- The blocks of a message that the queue takes. -/
def Message.kept (room : ℕ) : Message → List (List UInt8)
  | .data blocks _ _ => keptBlocks room blocks
  | .keepAlive _ _ => []

/-! ### When one call takes one message -/

/-- The block loop of a fill reads every block to its end. -/
structure BlocksFit (env : RxEnv) (room : ℕ) (blocks : List (List UInt8)) : Prop where
  size : ∀ b ∈ blocks, b.length ≤ maxBlockSize
  alloc : ∀ b ∈ keptBlocks room blocks, env.serverUseCompress = true → env.malloc b.length = true

/-- A fill takes the message whole and stores its blocks as they are. -/
def FillsWhole (env : RxEnv) (room : ℕ) : Message → Prop
  | .keepAlive padding _ => padding.length ≤ 512
  | .data blocks _ _ =>
    BlocksFit env room blocks ∧ ∀ b ∈ keptBlocks room blocks, unpackBlock env maxQueuedFrame b = b

/-- The block that goes to the caller's buffer is allocated for. -/
def AllocatesFirst (env : RxEnv) (maxPayload : Option ℕ) (blocks : List (List UInt8)) : Prop :=
  ∀ size, maxPayload = some size →
    ∀ b, blocks.find? (fun b => b.length ≤ size) = some b → 0 < b.length →
      env.malloc b.length = true

/-- A call of `softether_receive_packet` takes the message whole. -/
def ReadsWhole (env : RxEnv) (maxPayload : Option ℕ) : Message → Prop
  | .keepAlive padding _ => padding.length ≤ 512
  | .data blocks _ _ =>
    (∀ b ∈ blocks, b.length ≤ maxBlockSize) ∧ AllocatesFirst env maxPayload blocks

/-! ### The fill -/

variable {env : RxEnv}

variable {b rest : List UInt8} {room : ℕ} {blocks : List (List UInt8)} {c c' : RxConn}

theorem readUint32_encodeBlock (hb : b.length < 2 ^ 32) (rest : List UInt8) :
    readUint32 (encodeBlock b ++ rest) = some (b.length, b ++ rest) := by
  rw [encodeBlock, List.append_assoc, readUint32_append hb]

theorem keptBlocks_pos (h : 0 < b.length ∧ b.length ≤ maxQueuedFrame ∧ 0 < room)
    (blocks : List (List UInt8)) :
    keptBlocks room (b :: blocks) = b :: keptBlocks (room - 1) blocks :=
  if_pos h

theorem keptBlocks_neg (h : ¬ (0 < b.length ∧ b.length ≤ maxQueuedFrame ∧ 0 < room))
    (blocks : List (List UInt8)) : keptBlocks room (b :: blocks) = keptBlocks room blocks :=
  if_neg h

/-- A block that is kept asks for its size and its allocation. -/
theorem blocksFit_cons_pos (h : 0 < b.length ∧ b.length ≤ maxQueuedFrame ∧ 0 < room) :
    BlocksFit env room (b :: blocks) ↔
      b.length ≤ maxBlockSize ∧ (env.serverUseCompress = true → env.malloc b.length = true) ∧
        BlocksFit env (room - 1) blocks := by
  constructor
  · intro hfit
    have halloc := hfit.alloc
    rw [keptBlocks_pos h] at halloc
    exact ⟨hfit.size b List.mem_cons_self, halloc b List.mem_cons_self,
      fun b' hb' => hfit.size b' (List.mem_cons_of_mem _ hb'),
      fun b' hb' => halloc b' (List.mem_cons_of_mem _ hb')⟩
  · rintro ⟨hmax, halloc, hfit⟩
    refine ⟨List.forall_mem_cons.mpr ⟨hmax, hfit.size⟩, ?_⟩
    rw [keptBlocks_pos h]
    exact List.forall_mem_cons.mpr ⟨halloc, hfit.alloc⟩

/-- A block that is not kept asks for its size only. -/
theorem blocksFit_cons_neg (h : ¬ (0 < b.length ∧ b.length ≤ maxQueuedFrame ∧ 0 < room)) :
    BlocksFit env room (b :: blocks) ↔ b.length ≤ maxBlockSize ∧ BlocksFit env room blocks := by
  constructor
  · intro hfit
    have halloc := hfit.alloc
    rw [keptBlocks_neg h] at halloc
    exact ⟨hfit.size b List.mem_cons_self,
      fun b' hb' => hfit.size b' (List.mem_cons_of_mem _ hb'), halloc⟩
  · rintro ⟨hmax, hfit⟩
    refine ⟨List.forall_mem_cons.mpr ⟨hmax, hfit.size⟩, ?_⟩
    rw [keptBlocks_neg h]
    exact hfit.alloc

/-- What the block loop does to the blocks of a message in front of `rest`: it takes them all,
    or it stops inside the message. -/
def FillsBlocks (env : RxEnv) (blocks : List (List UInt8)) (rest : List UInt8) (c : RxConn)
    (c' : RxConn) : Prop :=
  (BlocksFit env c.recvQueue.room blocks ∧ c'.stream = rest ∧
    c'.recvQueue.contents = c.recvQueue.contents ++
      (keptBlocks c.recvQueue.room blocks).map (unpackBlock env maxQueuedFrame)) ∨
  (¬ BlocksFit env c.recvQueue.room blocks ∧ rest.length < c'.stream.length)

/-- A block that stops the loop. -/
theorem FillsBlocks.stopped (hb : 0 < b.length)
    (hfit : ¬ BlocksFit env c.recvQueue.room (b :: blocks))
    (hstream : c'.stream = b ++ (blocks.flatMap encodeBlock ++ rest)) :
    FillsBlocks env (b :: blocks) rest c c' := by
  refine .inr ⟨hfit, ?_⟩
  simp only [hstream, List.length_append]
  omega

/-- A block that the loop passes over. -/
theorem FillsBlocks.passed {d : RxConn} (hb : b.length ≤ maxBlockSize)
    (hkept : ¬ (0 < b.length ∧ b.length ≤ maxQueuedFrame ∧ 0 < c.recvQueue.room))
    (hqueue : d.recvQueue = c.recvQueue) (h : FillsBlocks env blocks rest d c') :
    FillsBlocks env (b :: blocks) rest c c' := by
  unfold FillsBlocks at h ⊢
  rw [hqueue] at h
  rw [blocksFit_cons_neg hkept, keptBlocks_neg hkept]
  exact h.imp (fun ⟨hfit, hrest⟩ => ⟨⟨hb, hfit⟩, hrest⟩)
    (fun ⟨hfit, hrest⟩ => ⟨fun hcons => hfit hcons.2, hrest⟩)

/-- A block that goes to the queue. -/
theorem FillsBlocks.stored {d : RxConn} (hb : b.length ≤ maxBlockSize)
    (hkept : 0 < b.length ∧ b.length ≤ maxQueuedFrame ∧ 0 < c.recvQueue.room)
    (halloc : env.serverUseCompress = true → env.malloc b.length = true)
    (hroom : d.recvQueue.room = c.recvQueue.room - 1)
    (hqueue : d.recvQueue.contents = c.recvQueue.contents ++ [unpackBlock env maxQueuedFrame b])
    (h : FillsBlocks env blocks rest d c') : FillsBlocks env (b :: blocks) rest c c' := by
  unfold FillsBlocks at h ⊢
  rw [hroom, hqueue, List.append_assoc] at h
  rw [blocksFit_cons_pos hkept, keptBlocks_pos hkept, List.map_cons]
  exact h.imp (fun ⟨hfit, hrest⟩ => ⟨⟨hb, halloc, hfit⟩, hrest⟩)
    (fun ⟨hfit, hrest⟩ => ⟨fun hcons => hfit hcons.2.2, hrest⟩)

/-- **The block loop.** -/
theorem fillBlocks_spec (blocks : List (List UInt8)) (hsize : ∀ b ∈ blocks, b.length < 2 ^ 32)
    (rest : List UInt8) (c : RxConn) (hstream : c.stream = blocks.flatMap encodeBlock ++ rest) :
    FillsBlocks env blocks rest c (fillBlocks env blocks.length c).2 := by
  -- a block stops the loop, is stored, or is passed over
  induction blocks generalizing c with
  | nil => exact .inl ⟨⟨nofun, nofun⟩, hstream, (List.append_nil _).symm⟩
  | cons b blocks ih =>
    have hb := hsize b List.mem_cons_self
    have hrest := ih fun b' hb' => hsize b' (List.mem_cons_of_mem _ hb')
    rw [List.flatMap_cons, List.append_assoc] at hstream
    rw [List.length_cons, fillBlocks, hstream, readUint32_encodeBlock hb]
    simp only
    split_ifs with hmax hempty hkept halloc
    · apply FillsBlocks.stopped (by omega) _ rfl
      intro hfit
      have := hfit.size b List.mem_cons_self
      omega
    · -- An empty block: nothing but its size is on the wire.
      have hnil : b = [] := List.eq_nil_of_length_eq_zero hempty
      refine FillsBlocks.passed
        (d := { c with stream := b ++ (blocks.flatMap encodeBlock ++ rest) })
        (by omega) (by omega) rfl ?_
      apply hrest
      rw [hnil]
      rfl
    · have hroom : 0 < b.length ∧ b.length ≤ maxQueuedFrame ∧ 0 < c.recvQueue.room :=
        ⟨by omega, hkept.1, Nat.sub_pos_of_lt hkept.2⟩
      apply FillsBlocks.stopped hroom.1 _ rfl
      rw [blocksFit_cons_pos hroom]
      rintro ⟨_, hmalloc, _⟩
      simp only [Bool.and_eq_true, Bool.not_eq_true'] at halloc
      exact absurd (hmalloc halloc.1) (by rw [halloc.2]; decide)
    · have hroom : 0 < b.length ∧ b.length ≤ maxQueuedFrame ∧ 0 < c.recvQueue.room :=
        ⟨by omega, hkept.1, Nat.sub_pos_of_lt hkept.2⟩
      rw [takeBytes_append rfl]
      refine FillsBlocks.stored
        (d := { c with
          recvQueue := c.recvQueue.push (unpackBlock env maxQueuedFrame b) hkept.2
          stream := blocks.flatMap encodeBlock ++ rest })
        (by omega) hroom ?_ (Nat.sub_add_eq _ _ _) (RecvQueue.contents_push _ _ _) ?_
      · intro hcompress
        simpa [hcompress] using halloc
      · exact hrest _ rfl
    · rw [skipBlock_append]
      refine FillsBlocks.passed
        (d := { c with
          rxSkippedBlocks := (c.rxSkippedBlocks + 1) % 2 ^ 32
          stream := blocks.flatMap encodeBlock ++ rest })
        (by omega) ?_ rfl (hrest _ rfl)
      rintro ⟨_, hslot, hroom⟩
      exact hkept ⟨hslot, Nat.lt_of_sub_pos hroom⟩

/-- What the reader of a keep-alive leaves of it in the stream. -/
theorem takeBytes_padding (padding rest : List UInt8) :
    ∃ read, takeBytes (if padding.length > 512 then 512 else padding.length) (padding ++ rest) =
      some (read, padding.drop 512 ++ rest) := by
  split_ifs with hlong
  · refine ⟨padding.take 512, ?_⟩
    have hsplit : padding ++ rest = padding.take 512 ++ (padding.drop 512 ++ rest) := by
      rw [← List.append_assoc, List.take_append_drop]
    rw [hsplit, takeBytes_append (List.length_take_of_le (le_of_lt hlong))]
  · refine ⟨padding, ?_⟩
    rw [takeBytes_append rfl, List.drop_of_length_le (by omega), List.nil_append]

/-- Nothing of the padding is left exactly when it fits. -/
theorem drop_padding_iff (padding rest : List UInt8) :
    padding.drop 512 ++ rest = rest ↔ padding.length ≤ 512 := by
  rw [List.append_left_eq_self, List.drop_eq_nil_iff]

theorem map_eq_self_iff {f : List UInt8 → List UInt8} {l : List (List UInt8)} :
    l.map f = l ↔ ∀ b ∈ l, f b = b := by
  conv_lhs => rhs; rw [← List.map_id l]
  rw [List.map_inj_left]
  rfl

/-- **One message, one fill.** The call ends at the next message and stores the kept blocks as
    they were sent exactly when it takes the message whole. -/
theorem fillRecvQueue_aligned_iff (m : Message) (rest : List UInt8) (c : RxConn)
    (hstream : c.stream = m.encode ++ rest) :
    ((fillRecvQueue env c).2.stream = rest ∧
        (fillRecvQueue env c).2.recvQueue.contents =
          c.recvQueue.contents ++ m.kept c.recvQueue.room) ↔
      FillsWhole env c.recvQueue.room m := by
  cases m with
  | keepAlive padding size_lt =>
    obtain ⟨read, hread⟩ := takeBytes_padding padding rest
    simp only [Message.encode, keepAliveBlock, List.append_assoc] at hstream
    rw [fillRecvQueue, hstream, readUint32_append (by decide)]
    simp only [if_true, readUint32_append size_lt, hread, Message.kept, List.append_nil, and_true]
    exact drop_padding_iff padding rest
  | data blocks count_lt size_lt =>
    have hcount : blocks.length < 2 ^ 32 := Nat.lt_trans count_lt (by decide)
    simp only [Message.encode, List.append_assoc] at hstream
    have hspec := @fillBlocks_spec env blocks size_lt rest
      { c with stream := blocks.flatMap encodeBlock ++ rest } rfl
    -- An empty batch does not enter the loop, but the loop would do the same.
    have hfill : (fillRecvQueue env c).2 =
        (fillBlocks env blocks.length
          { c with stream := blocks.flatMap encodeBlock ++ rest }).2 := by
      rw [fillRecvQueue, hstream, readUint32_append hcount]
      simp only [if_neg (Nat.ne_of_lt count_lt)]
      split_ifs with hzero
      · rw [hzero, fillBlocks]
      · rfl
    rw [hfill]
    show _ ↔ BlocksFit env c.recvQueue.room blocks ∧
      ∀ b ∈ keptBlocks c.recvQueue.room blocks, unpackBlock env maxQueuedFrame b = b
    rcases hspec with ⟨hfit, hrest, hcontents⟩ | ⟨hnot, hlong⟩
    · rw [hrest, hcontents, Message.kept, List.append_cancel_left_eq, map_eq_self_iff]
      exact ⟨fun h => ⟨hfit, h.2⟩, fun h => ⟨rfl, h.2⟩⟩
    · constructor
      · rintro ⟨hrest, _⟩
        rw [hrest] at hlong
        exact absurd hlong (lt_irrefl _)
      · exact fun h => absurd h.1 hnot

/-! ### The packet reader -/

/-- The first block that fits the buffer is the one to allocate for. -/
theorem allocatesFirst_hit {size : ℕ} (hb : b.length ≤ size) (blocks : List (List UInt8)) :
    AllocatesFirst env (some size) (b :: blocks) ↔
      (0 < b.length → env.malloc b.length = true) := by
  have hfind : (b :: blocks).find? (fun b => b.length ≤ size) = some b := by
    rw [List.find?_cons_of_pos (by simpa using hb)]
  constructor
  · intro halloc hpos
    exact halloc size rfl b hfind hpos
  · rintro halloc _ ⟨⟩ b' hb' hpos
    obtain rfl := Option.some.inj (hfind.symm.trans hb')
    exact halloc hpos

/-- A block that does not fit is not allocated for. -/
theorem allocatesFirst_miss {maxPayload : Option ℕ}
    (hb : ∀ size, maxPayload = some size → ¬ b.length ≤ size) (blocks : List (List UInt8)) :
    AllocatesFirst env maxPayload (b :: blocks) ↔ AllocatesFirst env maxPayload blocks := by
  have hfind : ∀ size, maxPayload = some size →
      (b :: blocks).find? (fun b => b.length ≤ size) = blocks.find? (fun b => b.length ≤ size) := by
    intro size hsize
    rw [List.find?_cons_of_neg (by simpa using hb size hsize)]
  constructor
  · intro halloc size hsize b' hb'
    exact halloc size hsize b' ((hfind size hsize).trans hb')
  · intro halloc size hsize b' hb'
    exact halloc size hsize b' ((hfind size hsize).symm.trans hb')

/-- What the loop asks of the blocks still to come; `payload` is there once the caller's buffer
    has its block. -/
def ReadsBlocks (env : RxEnv) (maxPayload : Option ℕ) (payload : Option (List UInt8))
    (blocks : List (List UInt8)) : Prop :=
  (∀ b ∈ blocks, b.length ≤ maxBlockSize) ∧
    (payload = none → AllocatesFirst env maxPayload blocks)

/-- The loop ends at `rest`, or inside the message. -/
def EndsAt (rest : List UInt8) (C : Prop) (stream : List UInt8) : Prop :=
  (C ∧ stream = rest) ∨ (¬ C ∧ rest.length < stream.length)

theorem EndsAt.congr {stream : List UInt8} {C C' : Prop} (h : EndsAt rest C stream)
    (hiff : C' ↔ C) : EndsAt rest C' stream := by
  unfold EndsAt
  rw [hiff]
  exact h

theorem EndsAt.iff {stream : List UInt8} {C : Prop} (h : EndsAt rest C stream) :
    stream = rest ↔ C := by
  rcases h with ⟨hC, heq⟩ | ⟨hC, hlong⟩
  · exact ⟨fun _ => hC, fun _ => heq⟩
  · constructor
    · rintro rfl
      exact absurd hlong (lt_irrefl _)
    · exact fun h => absurd h hC

/-- **The block loop of the packet reader.** -/
theorem receiveBlocks_spec (maxPayload : Option ℕ) (blocks : List (List UInt8))
    (hsize : ∀ b ∈ blocks, b.length < 2 ^ 32) (rest : List UInt8) (totalRead : ℕ)
    (payload : Option (List UInt8)) :
    EndsAt rest (ReadsBlocks env maxPayload payload blocks)
      (receiveBlocks env maxPayload blocks.length totalRead payload
        (blocks.flatMap encodeBlock ++ rest)).stream := by
  induction blocks generalizing totalRead payload with
  | nil => exact .inl ⟨⟨nofun, fun _ _ _ => nofun⟩, rfl⟩
  | cons b blocks ih =>
    have hb := hsize b List.mem_cons_self
    have hrest := ih fun b' hb' => hsize b' (List.mem_cons_of_mem _ hb')
    have hinside : ∀ (stream : List UInt8), stream = b ++ (blocks.flatMap encodeBlock ++ rest) →
        0 < b.length → rest.length < stream.length := by
      rintro _ rfl hpos
      simp only [List.length_append]
      omega
    rw [List.flatMap_cons, List.append_assoc, List.length_cons, receiveBlocks,
      readUint32_encodeBlock hb]
    simp only
    by_cases hmax : b.length > maxBlockSize
    · rw [if_pos hmax]
      refine .inr ⟨fun hreads => ?_, hinside _ rfl (by omega)⟩
      have := hreads.1 b List.mem_cons_self
      omega
    · rw [if_neg hmax]
      have hmax' : b.length ≤ maxBlockSize := by omega
      cases hbuffer : (if payload.isNone then maxPayload.filter (b.length ≤ ·) else none) with
      | some size =>
        -- The caller's buffer is free and this block fits it.
        have hfree : payload = none := by
          by_contra hne
          rw [if_neg (by simpa using hne)] at hbuffer
          exact absurd hbuffer nofun
        subst hfree
        simp only [Option.isNone_none, if_true, Option.filter_eq_some_iff,
          decide_eq_true_eq] at hbuffer
        obtain ⟨rfl, hfits⟩ := hbuffer
        have hcond : ∀ block, ReadsBlocks env (some size) none (b :: blocks) ↔
            (0 < b.length → env.malloc b.length = true) ∧
              ReadsBlocks env (some size) (some block) blocks := by
          intro block
          simp only [ReadsBlocks, List.forall_mem_cons, allocatesFirst_hit hfits, reduceCtorEq,
            false_implies, true_implies, and_true, hmax', true_and]
          exact and_comm
        simp only
        split_ifs with hpos halloc
        · rw [takeBytes_append rfl]
          simp only
          exact (hrest _ _).congr ((hcond _).trans (and_iff_right fun _ => halloc))
        · refine .inr ⟨fun hreads => ?_, hinside _ rfl hpos⟩
          exact halloc (((hcond []).mp hreads).1 hpos)
        · have hnil : b = [] := List.eq_nil_of_length_eq_zero (by omega)
          subst hnil
          exact (hrest _ _).congr ((hcond _).trans (and_iff_right fun h => absurd h hpos))
      | none =>
        simp only
        rw [skipBlock_append]
        simp only
        apply (hrest _ _).congr
        simp only [ReadsBlocks, List.forall_mem_cons, hmax', true_and]
        apply and_congr_right
        intro _
        apply imp_congr_right
        rintro rfl
        apply allocatesFirst_miss
        rintro size rfl
        simpa [Option.filter_eq_none_iff] using hbuffer

/-- **One message, one call.** The call ends at the next message exactly when it takes the
    message whole. -/
theorem receivePacket_aligned_iff (maxPayload : Option ℕ) (m : Message) (rest : List UInt8) :
    (softetherReceivePacket env maxPayload (m.encode ++ rest)).stream = rest ↔
      ReadsWhole env maxPayload m := by
  cases m with
  | keepAlive padding size_lt =>
    obtain ⟨read, hread⟩ := takeBytes_padding padding rest
    simp only [Message.encode, keepAliveBlock, List.append_assoc]
    rw [softetherReceivePacket, readUint32_append (by decide)]
    simp only [if_true, readUint32_append size_lt, hread]
    exact drop_padding_iff padding rest
  | data blocks count_lt size_lt =>
    have hcount : blocks.length < 2 ^ 32 := Nat.lt_trans count_lt (by decide)
    simp only [Message.encode, List.append_assoc]
    rw [softetherReceivePacket, readUint32_append hcount]
    simp only [if_neg (Nat.ne_of_lt count_lt)]
    have hspec := @receiveBlocks_spec env maxPayload blocks size_lt rest 4 none
    have hcond : ReadsBlocks env maxPayload none blocks ↔
        ReadsWhole env maxPayload (.data blocks count_lt size_lt) := by
      simp only [ReadsBlocks, ReadsWhole, true_implies]
    rw [← hcond, ← hspec.iff]
    split_ifs with hzero
    · obtain rfl := List.eq_nil_of_length_eq_zero hzero
      rfl
    · rfl

/-! ### Runs -/

/-- The connection, with the messages the link has still to deliver and, for the queue, the
    frames the consumer took from it and those it should have got. -/
structure RxState where
  conn : RxConn
  pending : List Message
  delivered : List (List UInt8)
  wanted : List (List UInt8)

/-- A link that delivers `messages` and then `tail` to a queue that may hold frames. -/
def RxState.start (queue : RecvQueue) (messages : List Message) (tail : List UInt8) : RxState where
  conn := ⟨queue, 0, messages.flatMap Message.encode ++ tail⟩
  pending := messages
  delivered := []
  wanted := queue.contents

/-- The calls of the receiver. -/
inductive RxAction
  | fill (env : RxEnv)
  | receivePacket (env : RxEnv) (maxPayload : Option ℕ)
  | dequeue

/-- One call.  Without a pending message `poll` finds nothing to read. -/
def rxStep (s : RxState) : RxAction → RxState
  | .fill env =>
    match s.pending with
    | [] => s
    | m :: pending =>
      { conn := (fillRecvQueue env s.conn).2
        pending := pending
        delivered := s.delivered
        wanted := s.wanted ++ m.kept s.conn.recvQueue.room }
  | .receivePacket env maxPayload =>
    match s.pending with
    | [] => s
    | _ :: pending =>
      { s with
        conn := { s.conn with
          stream := (softetherReceivePacket env maxPayload s.conn.stream).stream }
        pending := pending }
  | .dequeue =>
    if h : 0 < s.conn.recvQueue.count then
      { s with
        conn := { s.conn with recvQueue := s.conn.recvQueue.pop h }
        delivered := s.delivered ++ [s.conn.recvQueue.front] }
    else s

/-- **Alignment.** The stream is at the next message, and the queue got the kept blocks as they
    were sent, in order. -/
structure Aligned (tail : List UInt8) (s : RxState) : Prop where
  boundary : s.conn.stream = s.pending.flatMap Message.encode ++ tail
  frames : s.delivered ++ s.conn.recvQueue.contents = s.wanted

/-- The condition of a call on the message in front of it. -/
def TakesWhole (s : RxState) : RxAction → Prop
  | .fill env => ∀ m ∈ s.pending.head?, FillsWhole env s.conn.recvQueue.room m
  | .receivePacket env maxPayload => ∀ m ∈ s.pending.head?, ReadsWhole env maxPayload m
  | .dequeue => True

theorem aligned_start (queue : RecvQueue) (messages : List Message) (tail : List UInt8) :
    Aligned tail (RxState.start queue messages tail) :=
  ⟨rfl, List.nil_append _⟩

/-- **One call decides.** -/
theorem rxStep_aligned_iff {tail : List UInt8} {s : RxState} (h : Aligned tail s) (a : RxAction) :
    Aligned tail (rxStep s a) ↔ TakesWhole s a := by
  obtain ⟨hboundary, hframes⟩ := h
  cases a with
  | fill env =>
    cases hp : s.pending with
    | nil =>
      simp only [rxStep, TakesWhole, hp, List.head?_nil]
      exact ⟨fun _ => nofun, fun _ => ⟨hboundary, hframes⟩⟩
    | cons m pending =>
      rw [hp, List.flatMap_cons, List.append_assoc] at hboundary
      have hiff := @fillRecvQueue_aligned_iff env m _ s.conn hboundary
      simp only [rxStep, TakesWhole, hp, List.head?_cons, Option.mem_def, Option.some.injEq,
        forall_eq']
      rw [← hiff]
      constructor
      · rintro ⟨hnext, hgot⟩
        simp only [← hframes, List.append_assoc, List.append_cancel_left_eq] at hgot
        exact ⟨hnext, hgot⟩
      · rintro ⟨hnext, hgot⟩
        refine ⟨hnext, ?_⟩
        simp only [hgot, ← hframes, List.append_assoc]
  | receivePacket env maxPayload =>
    cases hp : s.pending with
    | nil =>
      simp only [rxStep, TakesWhole, hp, List.head?_nil]
      exact ⟨fun _ => nofun, fun _ => ⟨hboundary, hframes⟩⟩
    | cons m pending =>
      rw [hp, List.flatMap_cons, List.append_assoc] at hboundary
      simp only [rxStep, TakesWhole, hp, List.head?_cons, Option.mem_def, Option.some.injEq,
        forall_eq']
      rw [← receivePacket_aligned_iff maxPayload m (pending.flatMap Message.encode ++ tail),
        ← hboundary]
      exact ⟨fun hal => hal.boundary, fun hnext => ⟨hnext, hframes⟩⟩
  | dequeue =>
    simp only [TakesWhole, iff_true]
    unfold rxStep
    split_ifs with hcount
    · refine ⟨hboundary, ?_⟩
      show s.delivered ++ [s.conn.recvQueue.front] ++ (s.conn.recvQueue.pop hcount).contents = _
      rw [List.append_assoc, List.singleton_append, ← RecvQueue.contents_pop, hframes]
    · exact ⟨hboundary, hframes⟩

/-- **Alignment of the receive side.** In every run of fills, packet reads and dequeues over
    the encoded messages, the stream is at a message boundary after every call and the queue
    got exactly the kept blocks, as they were sent and in order, if and only if every call meets
    `TakesWhole`. -/
theorem rx_alignment_iff (queue : RecvQueue) (messages : List Message) (tail : List UInt8)
    (as : List RxAction) :
    Always rxStep (Aligned tail) (RxState.start queue messages tail) as ↔
      Along rxStep TakesWhole (RxState.start queue messages tail) as :=
  always_iff_along (I := fun _ => True) (P := Aligned tail) (fun _ _ _ => trivial)
    (fun _ a _ hs => rxStep_aligned_iff hs a) trivial (aligned_start queue messages tail) as

/-- An empty queue. -/
def RecvQueue.empty : RecvQueue where
  slots := fun _ => []
  head := 0
  tail := 0
  count := 0
  head_lt := by decide
  count_le := by decide
  tail_eq := rfl

/-- A session without compression. -/
def plainEnv : RxEnv := ⟨false, fun _ _ => none, fun _ => true, false⟩

/-- A keep-alive of 513 bytes leaves a byte of its padding behind. -/
theorem rx_alignment_fails :
    ¬ ∀ (queue : RecvQueue) (messages : List Message) (tail : List UInt8) (as : List RxAction),
      Always rxStep (Aligned tail) (RxState.start queue messages tail) as := by
  intro hall
  have hpad : (List.replicate 513 (0 : UInt8)).length = 513 := List.length_replicate
  have hrun := hall .empty [.keepAlive (List.replicate 513 0) (by rw [hpad]; decide)] []
    [.fill plainEnv]
  have htakes := (rxStep_aligned_iff (aligned_start _ _ _) _).mp hrun.2
  have hwhole : (List.replicate 513 (0 : UInt8)).length ≤ 512 := htakes _ rfl
  rw [hpad] at hwhole
  exact absurd hwhole (by decide)

end SoftEther.Packet
