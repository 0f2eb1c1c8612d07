import SoftEther.Lib.RingBuffer
import SoftEther.Packet.Transmit

namespace SoftEther.Packet

open Lib

/-!
# The receive side of the block format

What a link delivers is read as messages: a keep-alive is its magic number, a size and that
many bytes; a data batch is a block count and, for each block, a size and that many bytes.

* `RecvQueue` — `recv_queue`, `recv_queue_head`, `recv_queue_tail`, `recv_queue_count`;
* `RxEnv` — what the connection and the outside world decide: session compression, zlib, the
  allocator, the kind of the selected socket;
* `fillRecvQueue` — one message into the queue, block by block;
* `softetherReceivePacket` — one message, of which the caller gets one block.

A read that the link cannot answer in full ends the link; the stream is empty from then on.
-/

/-! ### The receive queue -/

/-- `RECV_QUEUE_SIZE`. -/
abbrev recvQueueSize : ℕ := 64

/-- `MAX_QUEUED_FRAME`, the size of a slot. -/
abbrev maxQueuedFrame : ℕ := 2048

/-- `MAX_BLOCK_SIZE`. -/
abbrev maxBlockSize : ℕ := 1600 * 1600

/-- `COMPRESS_MAGIC`. -/
def compressMagic : ℕ := 0xDEADBEEFCAFEFACE

/-- The circular queue of frames. -/
structure RecvQueue where
  slots : ℕ → List UInt8
  head : ℕ
  tail : ℕ
  count : ℕ
  head_lt : head < recvQueueSize
  count_le : count ≤ recvQueueSize
  tail_eq : tail = (head + count) % recvQueueSize

namespace RecvQueue

/-- The queue as a ring buffer of frames. -/
def ring (q : RecvQueue) : RingBuffer (List UInt8) where
  buf := q.slots
  cap := recvQueueSize
  head := q.head
  size := q.count
  head_lt := q.head_lt
  size_le := q.count_le

/-- The queued frames, oldest first. -/
def contents (q : RecvQueue) : List (List UInt8) := q.ring.contents

/-- Free slots. -/
def room (q : RecvQueue) : ℕ := recvQueueSize - q.count

/-- Fill the slot at the tail. -/
def push (q : RecvQueue) (frame : List UInt8) (h : q.count < recvQueueSize) : RecvQueue where
  slots := Function.update q.slots q.tail frame
  head := q.head
  tail := (q.tail + 1) % recvQueueSize
  count := q.count + 1
  head_lt := q.head_lt
  count_le := h
  tail_eq := by
    simp only [q.tail_eq, recvQueueSize]
    omega

/-- Give up the slot at the head. -/
def pop (q : RecvQueue) (h : 0 < q.count) : RecvQueue where
  slots := q.slots
  head := (q.head + 1) % recvQueueSize
  tail := q.tail
  count := q.count - 1
  head_lt := Nat.mod_lt _ (by decide)
  count_le := le_trans (Nat.sub_le _ _) q.count_le
  tail_eq := by
    simp only [q.tail_eq, recvQueueSize]
    omega

/-- The frame at the head. -/
def front (q : RecvQueue) : List UInt8 := q.slots q.head

theorem contents_length (q : RecvQueue) : q.contents.length = q.count :=
  q.ring.contents_length

/-- Copying one element is an update of its cell. -/
theorem memcpy_singleton (mem : ℕ → List UInt8) (off : ℕ) (x : List UInt8) :
    memcpy mem off [x] = Function.update mem off x := by
  ext1 i
  rcases lt_trichotomy i off with hlt | rfl | hgt
  · rw [memcpy_outside mem off [x] (.inl hlt), Function.update_of_ne (by omega)]
  · rw [Function.update_self]
    exact memcpy_inside mem i [x] (i := 0) (by simp)
  · rw [memcpy_outside mem off [x] (.inr hgt), Function.update_of_ne (by omega)]

/-- `push` is a write of one frame to the ring. -/
theorem ring_push (q : RecvQueue) (frame : List UInt8) (h : q.count < recvQueueSize) :
    q.ring.write [frame] = some (q.push frame h).ring := by
  have hfits : ¬ [frame].length > q.ring.avail := by
    show ¬ 1 > recvQueueSize - q.count
    omega
  have hone : min (recvQueueSize - (q.head + q.count) % recvQueueSize) 1 = 1 := by
    have := Nat.mod_lt (q.head + q.count) (show 0 < recvQueueSize by decide)
    omega
  have hstore : q.ring.storeAt [frame] = (q.push frame h).slots := by
    simp only [RingBuffer.storeAt, ring, push, List.length_singleton, hone, gt_iff_lt,
      lt_self_iff_false, if_false, q.tail_eq]
    exact memcpy_singleton _ _ _
  rw [RingBuffer.write, dif_neg hfits]
  simp only [hstore]
  rfl

theorem contents_push (q : RecvQueue) (frame : List UInt8) (h : q.count < recvQueueSize) :
    (q.push frame h).contents = q.contents ++ [frame] :=
  (RingBuffer.write_eq_some (q.ring_push frame h)).1

theorem contents_pop (q : RecvQueue) (h : 0 < q.count) :
    q.contents = q.front :: (q.pop h).contents := by
  have hdrop : (q.pop h).contents = q.contents.drop 1 := by
    have hring : (q.pop h).ring = q.ring.advance 1 := by
      have hmin : min 1 q.count = 1 := by omega
      simp only [RingBuffer.advance, ring, pop, hmin]
    rw [contents, hring, RingBuffer.contents_advance]
    rfl
  have hpos : 0 < q.contents.length := by
    rw [contents_length]
    exact h
  have hfront : q.contents[0] = q.front := by
    have hget := q.ring.contents_getElem (i := 0) hpos
    rw [Nat.add_zero, Nat.mod_eq_of_lt q.ring.head_lt] at hget
    exact hget
  rw [hdrop, ← hfront]
  exact (List.drop_eq_getElem_cons hpos)

end RecvQueue

/-! ### Reading from the link -/

/-- What a receive pass finds outside the stream: `server_use_compress`, zlib behind
    `uncompress_data` with the size of its output buffer, `malloc`, and whether the selected
    socket is an additional one. -/
structure RxEnv where
  serverUseCompress : Bool
  uncompressData : List UInt8 → ℕ → Option (List UInt8)
  malloc : ℕ → Bool
  selIsAdditional : Bool

/-- The part of the connection a receive pass works on; `stream` is what the selected link
    still has to deliver. -/
structure RxConn where
  recvQueue : RecvQueue
  rxSkippedBlocks : ℕ
  stream : List UInt8

/-- `read_uint32`. -/
def readUint32 (stream : List UInt8) : Option (ℕ × List UInt8) :=
  (takeBytes 4 stream).map fun read => (beVal read.1, read.2)

/-- How much of a skipped block goes into `skip_buf` at once. -/
def skipChunk (remaining : ℕ) : ℕ := if remaining > 2048 then 2048 else remaining

theorem skipChunk_le (remaining : ℕ) : skipChunk remaining ≤ remaining := by
  unfold skipChunk
  split <;> omega

theorem skipChunk_pos {remaining : ℕ} (h : 0 < remaining) : 0 < skipChunk remaining := by
  unfold skipChunk
  split <;> omega

/-- The loop that skips a block. -/
def skipBlock (remaining : ℕ) (stream : List UInt8) : Option (List UInt8) :=
  if 0 < remaining then
    match takeBytes (skipChunk remaining) stream with
    | none => none
    | some (_, stream) => skipBlock (remaining - skipChunk remaining) stream
  else some stream
termination_by remaining
decreasing_by
  rename_i hpos
  have := skipChunk_pos hpos
  omega

/-- What is left of a block in an output buffer of `size` bytes: its decompression, the
    decompression of what follows the magic number, or the block as it is. -/
def unpackBlock (env : RxEnv) (size : ℕ) (block : List UInt8) : List UInt8 :=
  if env.serverUseCompress then
    match env.uncompressData block size with
    | some raw => raw
    | none =>
      if block.length > 8 ∧ beVal (block.take 8) = compressMagic then
        (env.uncompressData (block.drop 8) size).getD block
      else block
  else block

/-! ### `softether_fill_recv_queue` -/

/-- `CLOSE_FAILED_ADDITIONAL_SOCKET`: the connection survives the loss of an additional
    socket. -/
def closeFailed (env : RxEnv) (c : RxConn) : ℤ × RxConn :=
  (if env.selIsAdditional then 0 else -1, { c with stream := [] })

/-- The block loop, with the number of blocks still to come. -/
def fillBlocks (env : RxEnv) : ℕ → RxConn → ℤ × RxConn
  | 0, c => (if c.recvQueue.count > 0 then 1 else 0, c)
  | n + 1, c =>
    match readUint32 c.stream with
    | none => closeFailed env c
    | some (blockSize, stream) =>
      if blockSize > maxBlockSize then (-1, { c with stream := stream })
      else if blockSize = 0 then fillBlocks env n { c with stream := stream }
      else if h : blockSize ≤ maxQueuedFrame ∧ c.recvQueue.count < recvQueueSize then
        -- Only a compressed session reads into a temporary buffer.
        if env.serverUseCompress && !env.malloc blockSize then (-1, { c with stream := stream })
        else
          match takeBytes blockSize stream with
          | none => closeFailed env c
          | some (block, stream) =>
            fillBlocks env n
              { c with
                recvQueue := c.recvQueue.push (unpackBlock env maxQueuedFrame block) h.2
                stream := stream }
      else
        match skipBlock blockSize stream with
        | none => closeFailed env c
        | some stream =>
          fillBlocks env n
            { c with rxSkippedBlocks := (c.rxSkippedBlocks + 1) % 2 ^ 32, stream := stream }

/-- One message of the selected link. -/
def fillRecvQueue (env : RxEnv) (c : RxConn) : ℤ × RxConn :=
  match readUint32 c.stream with
  | none => closeFailed env c
  | some (blockCount, stream) =>
    if blockCount = keepAliveMagic then
      match readUint32 stream with
      | none => closeFailed env c
      | some (kaSize, stream) =>
        let kaSize := if kaSize > 512 then 512 else kaSize
        match takeBytes kaSize stream with
        | none => closeFailed env c
        | some (_, stream) => (0, { c with stream := stream })
    else if blockCount = 0 then (0, { c with stream := stream })
    else fillBlocks env blockCount { c with stream := stream }

/-! ### `softether_receive_packet` -/

/-- What the number in front of a message says. -/
inductive Command
  | data
  | keepAlive
  deriving DecidableEq, Repr

/-- What a call leaves behind: its return value, what it wrote to the caller's variables, and
    the rest of the stream. -/
structure Received where
  rc : ℤ
  command : Option Command
  payload : Option (List UInt8)
  stream : List UInt8

/-- A call that gives up. -/
def Received.failed (stream : List UInt8) : Received := ⟨-1, none, none, stream⟩

/-- The block loop; `maxPayload` is the size of the caller's buffer, if there is one, and a
    payload is there once `first_block_stored` is set. -/
def receiveBlocks (env : RxEnv) (maxPayload : Option ℕ) :
    ℕ → ℕ → Option (List UInt8) → List UInt8 → Received
  | 0, totalRead, payload, stream => ⟨totalRead, some .data, payload, stream⟩
  | n + 1, totalRead, payload, stream =>
    match readUint32 stream with
    | none => .failed []
    | some (blockSize, stream) =>
      if blockSize > maxBlockSize then .failed stream
      else
        match if payload.isNone then maxPayload.filter (blockSize ≤ ·) else none with
        | some size =>
          if blockSize > 0 then
            if env.malloc blockSize then
              match takeBytes blockSize stream with
              | none => .failed []
              | some (block, stream) =>
                receiveBlocks env maxPayload n (totalRead + 4 + blockSize)
                  (some (unpackBlock env size block)) stream
            else .failed stream
          else receiveBlocks env maxPayload n (totalRead + 4) (some []) stream
        | none =>
          match skipBlock blockSize stream with
          | none => .failed []
          | some stream =>
            receiveBlocks env maxPayload n (totalRead + 4 + blockSize) payload stream

/-- One message of the primary connection. -/
def softetherReceivePacket (env : RxEnv) (maxPayload : Option ℕ) (stream : List UInt8) : Received :=
  match readUint32 stream with
  | none => .failed []
  | some (blockCount, stream) =>
    if blockCount = keepAliveMagic then
      match readUint32 stream with
      | none => .failed []
      | some (kaSize, stream) =>
        let kaSize := if kaSize > 512 then 512 else kaSize
        match takeBytes kaSize stream with
        | none => .failed []
        | some (_, stream) => ⟨8 + kaSize, some .keepAlive, some [], stream⟩
    else if blockCount = 0 then ⟨4, some .data, some [], stream⟩
    else receiveBlocks env maxPayload blockCount 4 none stream

/-! ### Reads of what was written -/

theorem readUint32_append {v : ℕ} (h : v < 2 ^ 32) (rest : List UInt8) :
    readUint32 (beBytes 4 v ++ rest) = some (v, rest) := by
  simp only [readUint32, takeBytes_append (beBytes_length 4 v), Option.map_some,
    beVal_beBytes_of_lt (show v < 256 ^ 4 by omega)]

/-- Skipping in pieces is skipping at once. -/
theorem skipBlock_append (block rest : List UInt8) :
    skipBlock block.length (block ++ rest) = some rest := by
  induction hn : block.length using Nat.strong_induction_on generalizing block with
  | _ n ih =>
    subst hn
    rw [skipBlock]
    split_ifs with hpos
    · have hle := skipChunk_le block.length
      have hchunk := skipChunk_pos hpos
      have hsplit : block ++ rest = block.take (skipChunk block.length) ++
          (block.drop (skipChunk block.length) ++ rest) := by
        rw [← List.append_assoc, List.take_append_drop]
      have hdrop : (block.drop (skipChunk block.length)).length =
          block.length - skipChunk block.length := List.length_drop
      rw [hsplit, takeBytes_append (List.length_take_of_le hle)]
      simp only
      rw [← hdrop]
      exact ih _ (by omega) (block.drop (skipChunk block.length)) rfl
    · have hnil : block = [] := List.eq_nil_of_length_eq_zero (by omega)
      rw [hnil, List.nil_append]

end SoftEther.Packet
