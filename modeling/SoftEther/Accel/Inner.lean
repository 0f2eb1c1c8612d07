import SoftEther.Accel.Context
import SoftEther.Lib.BigEndian

namespace SoftEther.Accel

open Lib

/-!
# A received datagram, decrypted (`rudp_process_inner`)

* `rudpParseInner` — the checks that read the buffer only;
* `rudpInWindow` — the tick window;
* `rudpAccept` — ticks, loss detection, peer address and receive timing;
* `rudpQueueData` — decompression and the receive ring, after `rudpAccept`.

The last stage can still reject the datagram; `process_inner_unchanged_iff` says that
this is the only way in which a rejected datagram leaves a trace.
-/

/-! ### zlib -/

/-- zlib as `crypto/compress.c` calls it: the input and the room for the output, and the
    output unless the call fails. -/
structure Zlib where
  compress2 : List UInt8 → ℕ → Option (List UInt8)
  uncompress : List UInt8 → ℕ → Option (List UInt8)

/-- `compress_data`. -/
def compressData (z : Zlib) (data : List UInt8) (room : ℕ) : Option (List UInt8) :=
  if data.length = 0 then some [] else z.compress2 data room

/-- `uncompress_data`. -/
def uncompressData (z : Zlib) (data : List UInt8) (room : ℕ) : Option (List UInt8) :=
  if data.length = 0 then some [] else z.uncompress data room

/-- **zlib round-trips.** Compressed data is not empty and fits the room it was given, and
    decompressing it gives the input when that fits, and fails when it does not. -/
structure Zlib.RoundTrips (z : Zlib) : Prop where
  length_le : ∀ data room c, data ≠ [] → z.compress2 data room = some c →
    1 ≤ c.length ∧ c.length ≤ room
  uncompress : ∀ data room c, data ≠ [] → z.compress2 data room = some c →
    ∀ room', z.uncompress c room' = if data.length ≤ room' then some data else none

/-- A codec that prefixes the two bytes of a zlib header. -/
def headerZlib : Zlib where
  compress2 := fun data room =>
    if data.length + 2 ≤ room then some (0x78 :: 0x01 :: data) else none
  uncompress := fun data room =>
    match data with
    | a :: b :: rest =>
      if a = 0x78 ∧ b = 0x01 ∧ rest.length ≤ room then some rest else none
    | _ => none

theorem headerZlib_roundTrips : headerZlib.RoundTrips where
  length_le := by
    intro data room c hne hc
    simp only [headerZlib] at hc
    split at hc
    · rename_i hroom
      rw [Option.some.injEq] at hc
      subst hc
      rw [List.length_cons, List.length_cons]
      omega
    · exact absurd hc (by simp)
  uncompress := by
    intro data room c hne hc room'
    simp only [headerZlib] at hc
    split at hc
    · rw [Option.some.injEq] at hc
      subst hc
      simp [headerZlib]
    · exact absurd hc (by simp)

/-! ### Parsing -/

/-- The bit of the flags for a compressed payload. -/
def rudpFlagCompressed : UInt8 := 0x01

/-- The payload is marked as compressed. -/
def isCompressed (flag : UInt8) : Bool := flag &&& rudpFlagCompressed ≠ 0

/-- The fields behind the cookie. -/
structure InnerPacket where
  myTick : ℕ
  yourTick : ℕ
  flag : UInt8
  data : List UInt8

/-- The verify field of the V1 format: the last 20 bytes are there and are zero. -/
def rudpVerifyPadding (rest : List UInt8) : Bool :=
  rudpPacketIvSizeV1 ≤ rest.length &&
    (rest.drop (rest.length - rudpPacketIvSizeV1)).all (fun b => b = 0)

/-- Cookie, the two ticks, size, flag, payload and, in the V1 format, the verify field. -/
def rudpParseInner (myCookie : ℕ) (verifyPadding : Bool) (buf : List UInt8) :
    Option InnerPacket :=
  match takeBytes 4 buf with
  | none => none
  | some (cookie, buf) =>
    if beVal cookie ≠ myCookie then none
    else
      match takeBytes 8 buf with
      | none => none
      | some (myTick, buf) =>
        match takeBytes 8 buf with
        | none => none
        | some (yourTick, buf) =>
          match takeBytes 2 buf with
          | none => none
          | some (innerSize, buf) =>
            match takeBytes 1 buf with
            | none => none
            | some (flag, buf) =>
              match takeBytes (beVal innerSize) buf with
              | none => none
              | some (data, rest) =>
                if verifyPadding && !rudpVerifyPadding rest then none
                else some
                  { myTick := beVal myTick
                    yourTick := beVal yourTick
                    flag := flag.headD 0
                    data := data }

/-! ### Accepting -/

/-- The peer's tick is not older than the window. -/
def rudpInWindow (ctx : RudpContext) (myTick : ℕ) : Bool :=
  !(myTick < ctx.lastRecvYourTick && ctx.lastRecvYourTick - myTick ≥ rudpWindowSizeMsec)

/-- The two ticks of an accepted packet. -/
def rudpRecordTicks (ctx : RudpContext) (p : InnerPacket) : RudpContext :=
  { ctx with
    lastRecvMyTick := if p.yourTick > ctx.lastRecvMyTick then p.yourTick else ctx.lastRecvMyTick
    lastRecvYourTick :=
      if p.myTick > ctx.lastRecvYourTick then p.myTick else ctx.lastRecvYourTick }

/-- A forward jump of the peer's clock counts as a loss. -/
def rudpDetectGap (ctx : RudpContext) (p : InnerPacket) : RudpContext :=
  if ctx.lastPeerTickSeen ≠ 0 ∧ p.myTick > add64 ctx.lastPeerTickSeen rudpPeerTickLossGap then
    rudpCwinOnLoss { ctx with peerTickGapEvents := ctx.peerTickGapEvents + 1 }
  else ctx

/-- The receive timing. -/
def rudpRecordReceive (ctx : RudpContext) : RudpContext :=
  if ctx.lastRecvMyTick ≠ 0 ∧ add64 ctx.lastRecvMyTick rudpWindowSizeMsec ≥ ctx.now then
    { ctx with
      lastRecvTick := ctx.now
      firstStableReceiveTick :=
        if ctx.firstStableReceiveTick = 0 then ctx.now else ctx.firstStableReceiveTick }
  else ctx

/-- Everything that is recorded about an accepted packet before its payload is looked at. -/
def rudpAccept (ctx : RudpContext) (source : SockAddr) (p : InnerPacket) : RudpContext :=
  let ctx := rudpDetectGap (rudpRecordTicks ctx p) p
  rudpRecordReceive
    { ctx with
      lastPeerTickSeen := p.myTick
      udpRxPackets := ctx.udpRxPackets + 1
      peerAddr := source
      peerAddrSet := true
      isIpv6 := source.ipv6 }

/-! ### The payload -/

/-- Queue a block. One that is too long is dropped; with a full ring it is counted. -/
def rudpQueueBlock (ctx : RudpContext) (data : List UInt8) : RudpContext :=
  if h : data.length ≤ rudpMaxPayloadSize then
    if ctx.recvQueue.count < rudpRecvQueueSize then
      { ctx with recvQueue := ctx.recvQueue.push ⟨data, h⟩ }
    else
      rudpCwinOnLoss { ctx with
        recvQueueOverflowCount := ctx.recvQueueOverflowCount + 1
        recentOverflows := ctx.recentOverflows + 1 }
  else ctx

/-- Decompress the payload when it is marked so, and queue it; `false` when it does not
    decompress. -/
def rudpQueueData (z : Zlib) (ctx : RudpContext) (p : InnerPacket) : Bool × RudpContext :=
  if p.data.length > 0 then
    if isCompressed p.flag then
      match uncompressData z p.data rudpCompressBufSize with
      | none => (false, ctx)
      | some data => (true, rudpQueueBlock ctx data)
    else (true, rudpQueueBlock ctx p.data)
  else (true, ctx)

/-- `rudp_process_inner`: `true` for the result 0, `false` for -1. -/
def rudpProcessInner (z : Zlib) (ctx : RudpContext) (buf : List UInt8) (source : SockAddr)
    (verifyPadding : Bool) : Bool × RudpContext :=
  match rudpParseInner ctx.myCookie verifyPadding buf with
  | none => (false, ctx)
  | some p =>
    if !rudpInWindow ctx p.myTick then (false, ctx)
    else rudpQueueData z (rudpAccept ctx source p) p

/-! ### Rejected datagrams -/

@[simp] theorem rudpDetectGap_udpRxPackets (ctx : RudpContext) (p : InnerPacket) :
    (rudpDetectGap ctx p).udpRxPackets = ctx.udpRxPackets := by
  unfold rudpDetectGap
  split <;> rfl

@[simp] theorem rudpRecordReceive_udpRxPackets (ctx : RudpContext) :
    (rudpRecordReceive ctx).udpRxPackets = ctx.udpRxPackets := by
  unfold rudpRecordReceive
  split <;> rfl

/-- Accepting a packet counts it. -/
theorem rudpAccept_udpRxPackets (ctx : RudpContext) (source : SockAddr) (p : InnerPacket) :
    (rudpAccept ctx source p).udpRxPackets = ctx.udpRxPackets + 1 := by
  unfold rudpAccept
  rw [rudpRecordReceive_udpRxPackets, rudpDetectGap_udpRxPackets]
  rfl

/-- The datagram passes every check up to the window, and its payload is marked as
    compressed and does not decompress. -/
def LateFailure (z : Zlib) (ctx : RudpContext) (buf : List UInt8) (verifyPadding : Bool) : Prop :=
  ∃ p, rudpParseInner ctx.myCookie verifyPadding buf = some p ∧
    rudpInWindow ctx p.myTick = true ∧ p.data.length > 0 ∧ isCompressed p.flag = true ∧
    uncompressData z p.data rudpCompressBufSize = none

/-- The payload stage rejects exactly what does not decompress, and keeps the context. -/
theorem rudpQueueData_rejects_iff (z : Zlib) (ctx : RudpContext) (p : InnerPacket) :
    (rudpQueueData z ctx p).1 = false ↔
      p.data.length > 0 ∧ isCompressed p.flag = true ∧
        uncompressData z p.data rudpCompressBufSize = none := by
  unfold rudpQueueData
  by_cases hlen : p.data.length > 0
  · rw [if_pos hlen]
    cases hflag : isCompressed p.flag with
    | false => simp
    | true =>
      cases hz : uncompressData z p.data rudpCompressBufSize with
      | none => simp [hlen]
      | some data => simp
  · rw [if_neg hlen]
    simp [hlen]

theorem rudpQueueData_rejected {z : Zlib} {ctx : RudpContext} {p : InnerPacket}
    (h : (rudpQueueData z ctx p).1 = false) : (rudpQueueData z ctx p).2 = ctx := by
  obtain ⟨hlen, hflag, hz⟩ := (rudpQueueData_rejects_iff z ctx p).mp h
  unfold rudpQueueData
  rw [if_pos hlen, if_pos hflag, hz]

/-- **When a rejected datagram has no effect.** For every context and datagram: a result
    of -1 leaves the context as it was, unless the payload of a packet that passed all
    checks fails to decompress. -/
theorem process_inner_unchanged_iff (z : Zlib) (ctx : RudpContext) (buf : List UInt8)
    (source : SockAddr) (verifyPadding : Bool) :
    ((rudpProcessInner z ctx buf source verifyPadding).1 = false →
        (rudpProcessInner z ctx buf source verifyPadding).2 = ctx) ↔
      ¬ LateFailure z ctx buf verifyPadding := by
  unfold rudpProcessInner
  cases hparse : rudpParseInner ctx.myCookie verifyPadding buf with
  | none =>
    refine iff_of_true (fun _ => rfl) ?_
    rintro ⟨p, hp, -⟩
    rw [hparse] at hp
    exact absurd hp (by simp)
  | some p =>
    dsimp only
    cases hwin : rudpInWindow ctx p.myTick with
    | false =>
      refine iff_of_true (fun _ => rfl) ?_
      rintro ⟨q, hq, hqwin, -⟩
      rw [hparse, Option.some.injEq] at hq
      subst hq
      rw [hwin] at hqwin
      exact absurd hqwin (by simp)
    | true =>
      rw [if_neg (by simp)]
      constructor
      · -- a late failure has counted the packet already
        rintro h ⟨q, hq, -, hlate⟩
        rw [hparse, Option.some.injEq] at hq
        subst hq
        have hrej := (rudpQueueData_rejects_iff z (rudpAccept ctx source p) p).mpr hlate
        have hctx := h hrej
        rw [rudpQueueData_rejected hrej] at hctx
        have hcount := rudpAccept_udpRxPackets ctx source p
        rw [hctx] at hcount
        omega
      · intro hno hrej
        exact absurd ⟨p, hparse, hwin,
          (rudpQueueData_rejects_iff z (rudpAccept ctx source p) p).mp hrej⟩ hno

/-- A packet of the V2 format for `sampleContext`: its payload is one zero byte, marked as
    compressed. -/
def badPayload : List UInt8 :=
  beBytes 4 5 ++ beBytes 8 7 ++ beBytes 8 0 ++ beBytes 2 1 ++ [rudpFlagCompressed] ++ [0]

/-- The packet is rejected and counted. -/
theorem process_inner_leaves_trace :
    (rudpProcessInner headerZlib sampleContext badPayload ⟨false, 9, 9⟩ false).1 = false ∧
      (rudpProcessInner headerZlib sampleContext badPayload ⟨false, 9, 9⟩ false).2 ≠
        sampleContext := by
  refine ⟨by decide, ?_⟩
  intro h
  have hcount := congrArg RudpContext.udpRxPackets h
  have hone : (rudpProcessInner headerZlib sampleContext badPayload ⟨false, 9, 9⟩
      false).2.udpRxPackets = 1 := by decide
  rw [hone] at hcount
  exact absurd hcount (by decide)

end SoftEther.Accel
