import Mathlib.Algebra.Group.Nat.Defs
import Mathlib.Data.List.Basic

namespace SoftEther.Accel

/-!
# UDP acceleration: the context (`proto/softether_rudp.c`)

The fields of `rudp_context_t` that the packet path reads and writes, the receive ring
and the loss-adaptive send window.

* ticks and counters are natural numbers; a sum of ticks wraps at `2 ^ 64` where the
  source adds two of them;
* keys, IVs and payloads are byte lists, bounded by subtypes where the source has arrays;
* the socket, the mutex and the reference count are not part of this model.
-/

/-! ### Constants (`softether_rudp.h`) -/

def rudpPacketIvSizeV1 : ℕ := 20
def rudpPacketKeySizeV1 : ℕ := 20
def rudpPacketIvSizeV2 : ℕ := 12
def rudpPacketMacSizeV2 : ℕ := 16
def rudpTmpBufSize : ℕ := 2048
def rudpWindowSizeMsec : ℕ := 30 * 1000
def rudpMaxPayloadSize : ℕ := 1600
def rudpMaxPaddingSize : ℕ := 32
def rudpMaxUdpPacketIpv4 : ℕ := 1472
def rudpRecvQueueSize : ℕ := 256
def rudpPeerTickLossGap : ℕ := 10 * 1000
def rudpCwinStart : ℕ := 256 * 1024
def rudpCwinMin : ℕ := 32 * 1024
def rudpCwinMax : ℕ := 8 * 1024 * 1024
def rudpCwinGrowBps : ℕ := 4 * 1024 * 1024

/-- The scratch buffers for compressed and decompressed data. -/
def rudpCompressBufSize : ℕ := rudpMaxPayloadSize + 256

/-! ### Data -/

/-- The two packet formats. -/
inductive RudpVersion
  | v1
  | v2
  deriving DecidableEq, Repr

/-- A socket address: family, address and port. -/
structure SockAddr where
  ipv6 : Bool
  ip : ℕ
  port : ℕ
  deriving DecidableEq, Repr

/-- `rudp_queued_block_t`. -/
abbrev QueuedBlock := { d : List UInt8 // d.length ≤ rudpMaxPayloadSize }

/-- The receive ring: `recv_queue`, its two indices and its count. -/
structure RecvQueue where
  slots : ℕ → QueuedBlock
  head : ℕ
  tail : ℕ
  count : ℕ

/-- `rudp_context_t`. -/
structure RudpContext where
  inited : Bool
  version : RudpVersion
  myKey : List UInt8
  yourKey : List UInt8
  myKeyV2 : List UInt8
  yourKeyV2 : List UInt8
  nextIv : List UInt8
  nextIvV2 : List UInt8
  myCookie : ℕ
  yourCookie : ℕ
  peerAddr : SockAddr
  peerAddrSet : Bool
  isIpv6 : Bool
  now : ℕ
  lastRecvTick : ℕ
  lastRecvYourTick : ℕ
  lastRecvMyTick : ℕ
  firstStableReceiveTick : ℕ
  fastDetect : Bool
  maxUdpPacketSize : ℕ
  useCompress : Bool
  recvQueue : RecvQueue
  recvQueueOverflowCount : ℕ
  udpRxPackets : ℕ
  peerTickGapEvents : ℕ
  lastPeerTickSeen : ℕ
  recentOverflows : ℕ
  udpDataSuspended : Bool
  udpDataResumeTick : ℕ
  suspensionCount : ℕ
  lastLossEventTick : ℕ
  cwinBytes : ℕ
  cwinLastRefillTick : ℕ
  cwinInited : Bool

/-- Sum of two `uint64_t`. -/
def add64 (a b : ℕ) : ℕ := (a + b) % 2 ^ 64

/-! ### The receive ring -/

/-- Store a block at the tail. -/
def RecvQueue.push (q : RecvQueue) (b : QueuedBlock) : RecvQueue where
  slots := fun i => if i = q.tail then b else q.slots i
  head := q.head
  tail := (q.tail + 1) % rudpRecvQueueSize
  count := q.count + 1

/-- The blocks in the ring, oldest first. -/
def RecvQueue.blocks (q : RecvQueue) : List QueuedBlock :=
  (List.range q.count).map (fun i => q.slots ((q.head + i) % rudpRecvQueueSize))

/-- **The ring is well formed**: indices in range, and the tail `count` blocks behind the
    head. -/
structure RecvQueue.Ok (q : RecvQueue) : Prop where
  head_lt : q.head < rudpRecvQueueSize
  count_le : q.count ≤ rudpRecvQueueSize
  tail_eq : q.tail = (q.head + q.count) % rudpRecvQueueSize

/-- A block pushed to a ring that is not full is its last block. -/
theorem RecvQueue.push_blocks {q : RecvQueue} (h : q.Ok) (hroom : q.count < rudpRecvQueueSize)
    (b : QueuedBlock) : (q.push b).blocks = q.blocks ++ [b] := by
  have hsize : rudpRecvQueueSize = 256 := rfl
  have htail := h.tail_eq
  show (List.range (q.count + 1)).map (fun i =>
    if (q.head + i) % rudpRecvQueueSize = q.tail then b
    else q.slots ((q.head + i) % rudpRecvQueueSize)) = q.blocks ++ [b]
  rw [List.range_succ, List.map_append, List.map_singleton, if_pos htail.symm]
  congr 1
  apply List.map_congr_left
  intro i hi
  rw [List.mem_range] at hi
  -- an occupied slot is not the one at the tail
  have hne : (q.head + i) % rudpRecvQueueSize ≠ q.tail := by
    rw [htail]
    rw [hsize] at hroom ⊢
    omega
  exact if_neg hne

theorem RecvQueue.push_ok {q : RecvQueue} (h : q.Ok) (hroom : q.count < rudpRecvQueueSize)
    (b : QueuedBlock) : (q.push b).Ok where
  head_lt := h.head_lt
  count_le := hroom
  tail_eq := by
    show (q.tail + 1) % rudpRecvQueueSize = (q.head + (q.count + 1)) % rudpRecvQueueSize
    rw [h.tail_eq, Nat.mod_add_mod, Nat.add_assoc]

/-! ### The send window -/

/-- `rudp_cwin_refill`. -/
def rudpCwinRefill (ctx : RudpContext) : RudpContext :=
  if !ctx.cwinInited then
    { ctx with
      cwinBytes := rudpCwinStart
      cwinLastRefillTick := ctx.now
      cwinInited := true }
  else if ctx.now ≤ ctx.cwinLastRefillTick then ctx
  else
    let dt := ctx.now - ctx.cwinLastRefillTick
    let bytes := add64 ctx.cwinBytes (rudpCwinGrowBps * dt % 2 ^ 64 / 1000)
    { ctx with
      cwinLastRefillTick := ctx.now
      cwinBytes := if bytes > rudpCwinMax then rudpCwinMax else bytes }

/-- `rudp_cwin_on_loss`. -/
def rudpCwinOnLoss (ctx : RudpContext) : RudpContext :=
  { ctx with
    lastLossEventTick := ctx.now
    cwinBytes := if ctx.cwinBytes / 2 < rudpCwinMin then rudpCwinMin else ctx.cwinBytes / 2 }

/-- The send side's use of the window: a payload of `size` bytes. -/
def rudpCwinConsume (ctx : RudpContext) (size : ℕ) : RudpContext :=
  if size > 0 then
    let ctx := rudpCwinRefill ctx
    { ctx with cwinBytes := if ctx.cwinBytes ≥ size then ctx.cwinBytes - size else 0 }
  else ctx

/-! ### A small context -/

/-- An initialised IPv4 context in which nothing has been received. -/
def sampleContext : RudpContext where
  inited := true
  version := .v1
  myKey := List.replicate 20 1
  yourKey := List.replicate 20 1
  myKeyV2 := List.replicate 32 2
  yourKeyV2 := List.replicate 32 2
  nextIv := List.replicate 20 3
  nextIvV2 := List.replicate 12 4
  myCookie := 5
  yourCookie := 5
  peerAddr := ⟨false, 0, 0⟩
  peerAddrSet := true
  isIpv6 := false
  now := 1000
  lastRecvTick := 0
  lastRecvYourTick := 0
  lastRecvMyTick := 0
  firstStableReceiveTick := 0
  fastDetect := false
  maxUdpPacketSize := rudpMaxUdpPacketIpv4
  useCompress := false
  recvQueue := ⟨fun _ => ⟨[], Nat.zero_le _⟩, 0, 0, 0⟩
  recvQueueOverflowCount := 0
  udpRxPackets := 0
  peerTickGapEvents := 0
  lastPeerTickSeen := 0
  recentOverflows := 0
  udpDataSuspended := false
  udpDataResumeTick := 0
  suspensionCount := 0
  lastLossEventTick := 0
  cwinBytes := 0
  cwinLastRefillTick := 0
  cwinInited := false

end SoftEther.Accel
