import SoftEther.Accel.Inner
import SoftEther.Crypto.Rc4

namespace SoftEther.Accel

open Lib SoftEther.Crypto

/-!
# Datagrams on the wire (`rudp_send`, the receive path of `rudp_poll`)

* `rudpSend` — compression, header, padding, verify field or MAC, encryption;
* `rudpPollDatagram` — one iteration of the receive loop of `rudp_poll`;
* `rudpPoll_of_send` — what a mirrored peer queues of a datagram that was sent;
* `send_deliverable_iff` — it queues the payload exactly when that fits a block of the
  receive ring.  The sender's limit is larger.
-/

/-! ### Ciphers -/

/-- ChaCha20-Poly1305 as the source uses it: ciphertext and tag of a plaintext, and back. -/
structure Aead where
  encrypt : List UInt8 → List UInt8 → List UInt8 → List UInt8 × List UInt8
  decrypt : List UInt8 → List UInt8 → List UInt8 → List UInt8 → Option (List UInt8)

/-- **The AEAD round-trips**, with a ciphertext as long as the plaintext and a 16-byte tag. -/
structure Aead.RoundTrips (a : Aead) : Prop where
  length_cipher : ∀ key iv plain, (a.encrypt key iv plain).1.length = plain.length
  length_tag : ∀ key iv plain, (a.encrypt key iv plain).2.length = rudpPacketMacSizeV2
  decrypt_encrypt : ∀ key iv plain,
    a.decrypt key iv (a.encrypt key iv plain).1 (a.encrypt key iv plain).2 = some plain

/-- What the packet path calls outside this library. -/
structure Primitives where
  sha1 : List UInt8 → List UInt8
  aead : Aead
  zlib : Zlib

/-- `calc_key`. -/
def calcKey (P : Primitives) (commonKey iv : List UInt8) : List UInt8 := P.sha1 (commonKey ++ iv)

/-! ### Sending -/

/-- What the environment decides in one `rudp_send`: the clock, the random number for the
    padding, and whether `sendto` succeeds. -/
structure RudpSendIo where
  tick : ℕ
  padRand : ℕ
  sent : Bool

/-- The payload as it goes into the packet, and its flag. Compression is used when it was
    negotiated and the call succeeds. -/
def rudpEncode (P : Primitives) (ctx : RudpContext) (data : List UInt8) (flag : UInt8) :
    List UInt8 × UInt8 :=
  if ctx.useCompress && data.length > 1 then
    match compressData P.zlib data rudpCompressBufSize with
    | some c => (c, flag ||| rudpFlagCompressed)
    | none => (data, flag)
  else (data, flag)

/-- The size of the IV and of what follows the padding. -/
def rudpIvSize : RudpVersion → ℕ
  | .v1 => rudpPacketIvSizeV1
  | .v2 => rudpPacketIvSizeV2

/-- What a version appends to the payload. -/
def rudpTrailerSize : RudpVersion → ℕ
  | .v1 => rudpPacketIvSizeV1
  | .v2 => rudpPacketMacSizeV2

/-- Cookie, my tick, your tick, size, flag. -/
def rudpHeader (cookie myTick yourTick size : ℕ) (flag : UInt8) : List UInt8 :=
  beBytes 4 cookie ++ (beBytes 8 myTick ++ (beBytes 8 yourTick ++ (beBytes 2 size ++ [flag])))

/-- Cookie, tick, the peer's tick, size and flags. -/
def rudpHeaderSize : ℕ := 4 + 8 + 8 + 2 + 1

/-- The sender's size check. -/
def rudpFits (v : RudpVersion) (size : ℕ) : Bool :=
  size = 0 || rudpIvSize v + rudpHeaderSize + size ≤ rudpTmpBufSize - rudpPacketIvSizeV1 - 8

/-- The padding: up to 32 bytes, not beyond the path's packet size. -/
def rudpPadSize (ctx : RudpContext) (padRand size : ℕ) : ℕ :=
  let currentSize := rudpIvSize ctx.version + rudpHeaderSize + size + rudpTrailerSize ctx.version
  if currentSize < ctx.maxUdpPacketSize then
    padRand % (min (ctx.maxUdpPacketSize - currentSize) rudpMaxPaddingSize + 1)
  else 0

/-- The last check of the V2 format: the padded packet exceeds the buffer. -/
def rudpTooLarge (ctx : RudpContext) (padRand size : ℕ) : Bool :=
  match ctx.version with
  | .v1 => false
  | .v2 =>
    rudpIvSize ctx.version + rudpHeaderSize + size + rudpTrailerSize ctx.version +
      rudpPadSize ctx padRand size > rudpTmpBufSize

/-- The tick in the header is never 0. -/
def rudpSendTick (tick : ℕ) : ℕ := if tick = 0 then 1 else tick

/-- What is encrypted: header, payload, padding and, in the V1 format, the verify field. -/
def rudpPlain (ctx : RudpContext) (io : RudpSendIo) (body : List UInt8) (flag : UInt8) :
    List UInt8 :=
  rudpHeader ctx.yourCookie (rudpSendTick io.tick) ctx.lastRecvYourTick body.length flag ++
    (body ++ (List.replicate (rudpPadSize ctx io.padRand body.length) (0 : UInt8) ++
      match ctx.version with
      | .v1 => List.replicate rudpPacketIvSizeV1 (0 : UInt8)
      | .v2 => []))

/-- The datagram of a plaintext. -/
def rudpEncrypt (P : Primitives) (ctx : RudpContext) (plain : List UInt8) : List UInt8 :=
  match ctx.version with
  | .v1 => ctx.nextIv ++ rc4Crypt (calcKey P ctx.myKey ctx.nextIv) plain
  | .v2 =>
    let ct := P.aead.encrypt ctx.myKeyV2 ctx.nextIvV2 plain
    ctx.nextIvV2 ++ (ct.1 ++ ct.2)

/-- The IV of the next packet: the end of the V1 packet, the start of the V2 ciphertext. -/
def rudpNextIv (ctx : RudpContext) (datagram : List UInt8) : RudpContext :=
  match ctx.version with
  | .v1 => { ctx with nextIv := datagram.drop (datagram.length - rudpPacketIvSizeV1) }
  | .v2 =>
    { ctx with nextIvV2 := (datagram.drop rudpPacketIvSizeV2).take rudpPacketIvSizeV2 }

/-- `rudp_send`: the context afterwards, and the datagram when the result is positive. -/
def rudpSend (P : Primitives) (ctx : RudpContext) (io : RudpSendIo) (data : List UInt8)
    (flag : UInt8) : RudpContext × Option (List UInt8) :=
  if !ctx.inited || !ctx.peerAddrSet then (ctx, none)
  else
    let ctx := { ctx with now := io.tick }
    let body := rudpEncode P ctx data flag
    if !rudpFits ctx.version body.1.length then (ctx, none)
    else if rudpTooLarge ctx io.padRand body.1.length then (ctx, none)
    else
      let datagram := rudpEncrypt P ctx (rudpPlain ctx io body.1 body.2)
      let ctx := rudpNextIv ctx datagram
      if io.sent then (rudpCwinConsume ctx data.length, some datagram) else (ctx, none)

/-! ### Receiving -/

/-- One datagram in the receive loop of `rudp_poll`: `recvfrom` takes at most
    `RUDP_TMP_BUF_SIZE` bytes of it. The flag is the result of `rudp_process_inner`, and
    `false` when that is not reached. -/
def rudpPollDatagram (P : Primitives) (ctx : RudpContext) (tick : ℕ) (source : SockAddr)
    (datagram : List UInt8) : Bool × RudpContext :=
  let d := datagram.take rudpTmpBufSize
  if d.length < rudpPacketIvSizeV1 + 4 + 1 then (false, ctx)
  else
    let ctx := { ctx with now := tick }
    match ctx.version with
    | .v1 =>
      let iv := d.take rudpPacketIvSizeV1
      let buf := rc4Crypt (calcKey P ctx.yourKey iv) (d.drop rudpPacketIvSizeV1)
      rudpProcessInner P.zlib ctx buf source true
    | .v2 =>
      if d.length < rudpPacketIvSizeV2 + rudpPacketMacSizeV2 + 4 + 1 then (false, ctx)
      else
        let iv := d.take rudpPacketIvSizeV2
        let body := d.drop rudpPacketIvSizeV2
        let cipher := body.take (body.length - rudpPacketMacSizeV2)
        let tag := body.drop (body.length - rudpPacketMacSizeV2)
        match P.aead.decrypt ctx.yourKeyV2 iv cipher tag with
        | none => (false, ctx)
        | some buf => rudpProcessInner P.zlib ctx buf source false

/-! ### What the sender emits -/

@[simp] theorem rudpHeader_length (cookie myTick yourTick size : ℕ) (flag : UInt8) :
    (rudpHeader cookie myTick yourTick size flag).length = rudpHeaderSize := by
  simp [rudpHeader, rudpHeaderSize]

variable {P : Primitives} {io : RudpSendIo} {data : List UInt8} {flag : UInt8}
  {ctx s r : RudpContext}

/-- **When `rudp_send` is positive.** -/
theorem rudpSend_eq_some {datagram : List UInt8} : (rudpSend P ctx io data flag).2 = some datagram ↔
      ctx.inited = true ∧ ctx.peerAddrSet = true ∧ io.sent = true ∧
        rudpFits ctx.version (rudpEncode P ctx data flag).1.length = true ∧
        rudpTooLarge ctx io.padRand (rudpEncode P ctx data flag).1.length = false ∧
        rudpEncrypt P ctx (rudpPlain ctx io (rudpEncode P ctx data flag).1
          (rudpEncode P ctx data flag).2) = datagram := by
  have henc : rudpEncode P { ctx with now := io.tick } data flag = rudpEncode P ctx data flag :=
    rfl
  have hplain : ∀ body f, rudpPlain { ctx with now := io.tick } io body f =
      rudpPlain ctx io body f := fun _ _ => rfl
  have hlarge : ∀ n, rudpTooLarge { ctx with now := io.tick } io.padRand n =
      rudpTooLarge ctx io.padRand n := fun _ => rfl
  have hencrypt : ∀ plain, rudpEncrypt P { ctx with now := io.tick } plain =
      rudpEncrypt P ctx plain := fun _ => rfl
  unfold rudpSend
  dsimp only
  rw [henc, hplain, hlarge, hencrypt]
  cases ctx.inited with
  | false => simp
  | true =>
    cases ctx.peerAddrSet with
    | false => simp
    | true =>
      cases rudpFits ctx.version (rudpEncode P ctx data flag).1.length with
      | false => simp
      | true =>
        cases rudpTooLarge ctx io.padRand (rudpEncode P ctx data flag).1.length with
        | true => simp
        | false =>
          cases io.sent with
          | false => simp
          | true => simp

/-- The padding stays inside the packet size of the path. -/
theorem rudpPadSize_le (ctx : RudpContext) (padRand size : ℕ) :
    rudpPadSize ctx padRand size = 0 ∨
      rudpIvSize ctx.version + rudpHeaderSize + size + rudpTrailerSize ctx.version +
        rudpPadSize ctx padRand size ≤ ctx.maxUdpPacketSize := by
  simp only [rudpPadSize]
  set currentSize := rudpIvSize ctx.version + rudpHeaderSize + size +
    rudpTrailerSize ctx.version with hcur
  split
  · right
    have hmod : padRand % (min (ctx.maxUdpPacketSize - currentSize) rudpMaxPaddingSize + 1) <
        min (ctx.maxUdpPacketSize - currentSize) rudpMaxPaddingSize + 1 :=
      Nat.mod_lt padRand (Nat.succ_pos _)
    have hmin := Nat.min_le_left (ctx.maxUdpPacketSize - currentSize) rudpMaxPaddingSize
    omega
  · exact Or.inl rfl

/-- **The packet fits the receive buffer** and is at least as long as its fixed fields. -/
theorem rudpSend_length (hP : P.aead.RoundTrips) (io : RudpSendIo) {body : List UInt8}
    (flag : UInt8) (hiv : ctx.nextIv.length = rudpPacketIvSizeV1)
    (hivV2 : ctx.nextIvV2.length = rudpPacketIvSizeV2)
    (hmtu : ctx.maxUdpPacketSize ≤ rudpTmpBufSize)
    (hfits : rudpFits ctx.version body.length = true) :
    rudpIvSize ctx.version + rudpHeaderSize + rudpTrailerSize ctx.version ≤
        (rudpEncrypt P ctx (rudpPlain ctx io body flag)).length ∧
      (rudpEncrypt P ctx (rudpPlain ctx io body flag)).length ≤ rudpTmpBufSize := by
  have hpad := rudpPadSize_le ctx io.padRand body.length
  have htmp : rudpTmpBufSize = 2048 := rfl
  have hiv1 : rudpPacketIvSizeV1 = 20 := rfl
  have hiv2 : rudpPacketIvSizeV2 = 12 := rfl
  have hmac : rudpPacketMacSizeV2 = 16 := rfl
  have hhdr : rudpHeaderSize = 23 := rfl
  simp only [rudpFits, Bool.or_eq_true, decide_eq_true_eq] at hfits
  -- the trailer is inside the RC4 text in the V1 format and behind the AEAD text in V2
  cases hv : ctx.version with
  | v1 =>
    simp only [hv, rudpIvSize, rudpTrailerSize] at hpad hfits
    simp only [rudpEncrypt, rudpPlain, hv, rudpIvSize, rudpTrailerSize, List.length_append,
      rc4Crypt_length, rudpHeader_length, List.length_replicate, hiv]
    omega
  | v2 =>
    simp only [hv, rudpIvSize, rudpTrailerSize] at hpad hfits
    simp only [rudpEncrypt, rudpPlain, hv, rudpIvSize, rudpTrailerSize, List.length_append,
      hP.length_cipher, hP.length_tag, rudpHeader_length, List.length_replicate, hivV2,
      List.length_nil]
    omega

/-! ### What the receiver makes of it -/

/-- A packet that was written is parsed back. -/
theorem rudpParseInner_header {cookie myTick size : ℕ} (yourTick : ℕ) (flag : UInt8)
    (rest : List UInt8) {verifyPadding : Bool} (hcookie : cookie < 2 ^ 32) (htick : myTick < 2 ^ 64)
    (hsize : size < 2 ^ 16) (hlen : data.length = size)
    (hverify : verifyPadding = true → rudpVerifyPadding rest = true) :
    rudpParseInner cookie verifyPadding
        (rudpHeader cookie myTick yourTick size flag ++ (data ++ rest)) =
      some ⟨myTick, yourTick % 2 ^ 64, flag, data⟩ := by
  have hval : beVal (beBytes 4 cookie) = cookie := beVal_beBytes_of_lt hcookie
  have hmy : beVal (beBytes 8 myTick) = myTick := beVal_beBytes_of_lt htick
  have hsz : beVal (beBytes 2 size) = size := beVal_beBytes_of_lt hsize
  have hyour : beVal (beBytes 8 yourTick) = yourTick % 2 ^ 64 := beVal_beBytes 8 yourTick
  have hpass : (verifyPadding && !rudpVerifyPadding rest) = false := by
    cases hb : verifyPadding with
    | false => rfl
    | true => rw [hverify hb]; rfl
  simp only [rudpHeader, List.append_assoc]
  unfold rudpParseInner
  rw [takeBytes_append (beBytes_length 4 cookie)]
  dsimp only
  rw [if_neg (by rw [hval]; simp), takeBytes_append (beBytes_length 8 myTick)]
  dsimp only
  rw [takeBytes_append (beBytes_length 8 yourTick)]
  dsimp only
  rw [takeBytes_append (beBytes_length 2 size)]
  dsimp only
  have hflag : takeBytes 1 ([flag] ++ (data ++ rest)) = some ([flag], data ++ rest) :=
    takeBytes_append rfl _
  rw [hflag]
  dsimp only
  rw [hsz, takeBytes_append hlen]
  dsimp only
  rw [hpass, hmy, hyour]
  rfl

/-- The zeros behind the payload are a valid verify field. -/
theorem rudpVerifyPadding_zeros (pad : ℕ) :
    rudpVerifyPadding (List.replicate pad (0 : UInt8) ++
      List.replicate rudpPacketIvSizeV1 (0 : UInt8)) = true := by
  rw [← List.replicate_add]
  simp [rudpVerifyPadding]

/-- Accepting a packet does not touch the receive ring. -/
@[simp] theorem rudpAccept_recvQueue (ctx : RudpContext) (source : SockAddr)
    (p : InnerPacket) : (rudpAccept ctx source p).recvQueue = ctx.recvQueue := by
  have hrecord : ∀ c : RudpContext, (rudpRecordReceive c).recvQueue = c.recvQueue := by
    intro c
    unfold rudpRecordReceive
    split <;> rfl
  have hgap : ∀ c : RudpContext, (rudpDetectGap c p).recvQueue = c.recvQueue := by
    intro c
    unfold rudpDetectGap
    split <;> rfl
  unfold rudpAccept
  rw [hrecord]
  exact hgap _

/-- The payloads in the receive ring, oldest first. -/
def rudpQueued (ctx : RudpContext) : List (List UInt8) := ctx.recvQueue.blocks.map Subtype.val

/-- What is queued of a block when there is room. -/
theorem rudpQueueBlock_queued (h : ctx.recvQueue.Ok)
    (hroom : ctx.recvQueue.count < rudpRecvQueueSize) (data : List UInt8) :
    rudpQueued (rudpQueueBlock ctx data) =
      rudpQueued ctx ++ if data.length ≤ rudpMaxPayloadSize then [data] else [] := by
  unfold rudpQueueBlock
  split
  · rename_i hlen
    show (ctx.recvQueue.push ⟨data, hlen⟩).blocks.map Subtype.val = _
    rw [RecvQueue.push_blocks h hroom, List.map_append]
    rfl
  · rw [List.append_nil]

/-- Decoding reverses encoding: what `rudpQueueData` queues of a payload that
    `rudpEncode` produced is the payload, if it fits a block. -/
theorem rudpQueueData_encode (hz : P.zlib.RoundTrips) (hflag : isCompressed flag = false)
    (hq : r.recvQueue.Ok) (hroom : r.recvQueue.count < rudpRecvQueueSize) {p : InnerPacket}
    (hdata : p.data = (rudpEncode P s data flag).1)
    (hpflag : p.flag = (rudpEncode P s data flag).2) : rudpQueued (rudpQueueData P.zlib r p).2 =
      rudpQueued r ++
        if data ≠ [] ∧ data.length ≤ rudpMaxPayloadSize then [data] else [] := by
  have hmax : rudpMaxPayloadSize = 1600 := rfl
  have hbuf : rudpCompressBufSize = 1856 := rfl
  by_cases hcomp : ∃ c, s.useCompress = true ∧ data.length > 1 ∧
      compressData P.zlib data rudpCompressBufSize = some c
  · obtain ⟨c, huse, hlen, hc⟩ := hcomp
    have hne : data ≠ [] := by
      rintro rfl
      simp at hlen
    have henc : rudpEncode P s data flag = (c, flag ||| rudpFlagCompressed) := by
      unfold rudpEncode
      rw [if_pos (by simp [huse, hlen]), hc]
    have hz2 : P.zlib.compress2 data rudpCompressBufSize = some c := by
      rw [compressData, if_neg (by omega)] at hc
      exact hc
    have hclen : 0 < c.length := (hz.length_le data _ c hne hz2).1
    have hset : isCompressed (flag ||| rudpFlagCompressed) = true := by
      apply decide_eq_true
      intro h
      have hbit := congrArg (fun b : UInt8 => b.toNat.testBit 0) h
      simp [rudpFlagCompressed] at hbit
    rw [henc] at hdata hpflag
    unfold rudpQueueData
    rw [hdata, hpflag, if_pos hclen, if_pos hset, uncompressData,
      if_neg (Nat.pos_iff_ne_zero.mp hclen), hz.uncompress data _ c hne hz2]
    -- the receiver's scratch buffer is larger than a block of its ring
    by_cases hfit : data.length ≤ rudpCompressBufSize
    · rw [if_pos hfit]
      show rudpQueued (rudpQueueBlock r data) = _
      rw [rudpQueueBlock_queued hq hroom]
      simp [hne]
    · rw [if_neg hfit]
      show rudpQueued r = _
      rw [if_neg (by omega), List.append_nil]
  · have henc : rudpEncode P s data flag = (data, flag) := by
      unfold rudpEncode
      split
      · rename_i hcond
        simp only [Bool.and_eq_true, decide_eq_true_eq] at hcond
        split
        · rename_i c hc
          exact absurd ⟨c, hcond.1, hcond.2, hc⟩ hcomp
        · rfl
      · rfl
    rw [henc] at hdata hpflag
    unfold rudpQueueData
    rw [hdata, hpflag, hflag]
    by_cases hnil : data = []
    · subst hnil
      simp
    · rw [if_pos (List.length_pos_iff.mpr hnil), if_neg (by simp)]
      show rudpQueued (rudpQueueBlock r data) = _
      rw [rudpQueueBlock_queued hq hroom]
      simp [hnil]

/-! ### Two mirrored contexts -/

/-- **The peer is ready for the next packet of `s`**: the sender's arrays have their sizes,
    keys and cookie are mirrored, the sender's tick is in the receiver's window, and the
    receive ring has room. -/
structure PeerReady (s r : RudpContext) (io : RudpSendIo) : Prop where
  nextIv : s.nextIv.length = rudpPacketIvSizeV1
  nextIvV2 : s.nextIvV2.length = rudpPacketIvSizeV2
  mtu : s.maxUdpPacketSize ≤ rudpTmpBufSize
  tick : io.tick < 2 ^ 64
  version : r.version = s.version
  key : r.yourKey = s.myKey
  keyV2 : r.yourKeyV2 = s.myKeyV2
  cookie : r.myCookie = s.yourCookie
  cookieLt : s.yourCookie < 2 ^ 32
  window : rudpInWindow r (rudpSendTick io.tick) = true
  ring : r.recvQueue.Ok
  room : r.recvQueue.count < rudpRecvQueueSize

/-- Decryption gives the plaintext to `rudp_process_inner`. -/
theorem rudpPollDatagram_encrypt (hP : P.aead.RoundTrips) (hr : PeerReady s r io)
    {body : List UInt8} (hfits : rudpFits s.version body.length = true) (tick : ℕ)
    (source : SockAddr) :
    rudpPollDatagram P r tick source (rudpEncrypt P s (rudpPlain s io body flag)) =
      rudpProcessInner P.zlib { r with now := tick } (rudpPlain s io body flag) source
        (s.version = .v1) := by
  obtain ⟨hmin, hmax⟩ := rudpSend_length hP io flag hr.nextIv hr.nextIvV2 hr.mtu hfits
  have hiv1 : rudpPacketIvSizeV1 = 20 := rfl
  have hiv2 : rudpPacketIvSizeV2 = 12 := rfl
  have hmac : rudpPacketMacSizeV2 = 16 := rfl
  have hhdr : rudpHeaderSize = 23 := rfl
  set plain := rudpPlain s io body flag with hplain
  unfold rudpPollDatagram
  dsimp only
  rw [List.take_of_length_le hmax]
  cases hv : s.version with
  | v1 =>
    rw [hv] at hmin
    simp only [rudpIvSize, rudpTrailerSize] at hmin
    rw [if_neg (by omega), hr.version, hv]
    dsimp only
    have henc : rudpEncrypt P s plain =
        s.nextIv ++ rc4Crypt (calcKey P s.myKey s.nextIv) plain := by
      rw [rudpEncrypt, hv]
    rw [henc, List.take_left' hr.nextIv, List.drop_left' hr.nextIv, hr.key, rc4Crypt_rc4Crypt]
    rfl
  | v2 =>
    rw [hv] at hmin
    simp only [rudpIvSize, rudpTrailerSize] at hmin
    rw [if_neg (by omega), hr.version, hv]
    dsimp only
    rw [if_neg (by omega)]
    have henc : rudpEncrypt P s plain = s.nextIvV2 ++
        ((P.aead.encrypt s.myKeyV2 s.nextIvV2 plain).1 ++
          (P.aead.encrypt s.myKeyV2 s.nextIvV2 plain).2) := by
      rw [rudpEncrypt, hv]
    -- the tag is the last 16 bytes
    have hcut : ((P.aead.encrypt s.myKeyV2 s.nextIvV2 plain).1 ++
        (P.aead.encrypt s.myKeyV2 s.nextIvV2 plain).2).length - rudpPacketMacSizeV2 =
        (P.aead.encrypt s.myKeyV2 s.nextIvV2 plain).1.length := by
      rw [List.length_append, hP.length_tag]
      omega
    rw [henc, List.take_left' hr.nextIvV2, List.drop_left' hr.nextIvV2, hcut, List.take_left,
      List.drop_left, hr.keyV2, hP.decrypt_encrypt]
    rfl

/-- What `rudp_process_inner` queues of a plaintext: the payload, when it is not empty and
    fits a block of the receive ring. -/
theorem rudpProcessInner_plain (hz : P.zlib.RoundTrips) (hr : PeerReady s r io)
    (hflag : isCompressed flag = false)
    (hfits : rudpFits s.version (rudpEncode P s data flag).1.length = true) (source : SockAddr) :
    rudpQueued (rudpProcessInner P.zlib r
        (rudpPlain s io (rudpEncode P s data flag).1 (rudpEncode P s data flag).2) source
        (s.version = .v1)).2 =
      rudpQueued r ++ if data ≠ [] ∧ data.length ≤ rudpMaxPayloadSize then [data] else [] := by
  have htick : rudpSendTick io.tick < 2 ^ 64 := by
    have hlt := hr.tick
    unfold rudpSendTick
    split
    · exact Nat.one_lt_two_pow (by decide)
    · exact hlt
  have hsize : (rudpEncode P s data flag).1.length < 2 ^ 16 := by
    have htmp : rudpTmpBufSize = 2048 := rfl
    simp only [rudpFits, Bool.or_eq_true, decide_eq_true_eq] at hfits
    omega
  -- the verify field is checked in the V1 format, where the packet ends with it
  have hverify : decide (s.version = .v1) = true →
      rudpVerifyPadding (List.replicate
        (rudpPadSize s io.padRand (rudpEncode P s data flag).1.length) (0 : UInt8) ++
        match s.version with
        | .v1 => List.replicate rudpPacketIvSizeV1 (0 : UInt8)
        | .v2 => []) = true := by
    intro hv
    rw [of_decide_eq_true hv]
    exact rudpVerifyPadding_zeros _
  have hparse := rudpParseInner_header s.lastRecvYourTick (rudpEncode P s data flag).2 _
    hr.cookieLt htick hsize rfl hverify
  generalize hp : (⟨rudpSendTick io.tick, s.lastRecvYourTick % 2 ^ 64,
    (rudpEncode P s data flag).2, (rudpEncode P s data flag).1⟩ : InnerPacket) = p at hparse
  have hring : (rudpAccept r source p).recvQueue = r.recvQueue := rudpAccept_recvQueue r source p
  have hdata : p.data = (rudpEncode P s data flag).1 := by rw [← hp]
  have hpflag : p.flag = (rudpEncode P s data flag).2 := by rw [← hp]
  have hwin : rudpInWindow r p.myTick = true := by
    rw [← hp]
    exact hr.window
  have hqueue := rudpQueueData_encode (r := rudpAccept r source p) hz hflag
    (by rw [hring]; exact hr.ring) (by rw [hring]; exact hr.room) hdata hpflag
  rw [rudpProcessInner, hr.cookie, rudpPlain, hparse]
  dsimp only
  rw [hwin, if_neg (by simp), hqueue]
  congr 1
  rw [rudpQueued, hring, rudpQueued]

/-- The clock of the receiver does not matter for being ready. -/
theorem PeerReady.at_now (hr : PeerReady s r io) (tick : ℕ) :
    PeerReady s { r with now := tick } io where
  nextIv := hr.nextIv
  nextIvV2 := hr.nextIvV2
  mtu := hr.mtu
  tick := hr.tick
  version := hr.version
  key := hr.key
  keyV2 := hr.keyV2
  cookie := hr.cookie
  cookieLt := hr.cookieLt
  window := hr.window
  ring := hr.ring
  room := hr.room

/-- **What the peer queues of a packet that was sent.** -/
theorem rudpPoll_of_send (hP : P.aead.RoundTrips) (hz : P.zlib.RoundTrips) (hr : PeerReady s r io)
    (hflag : isCompressed flag = false) {datagram : List UInt8}
    (hsend : (rudpSend P s io data flag).2 = some datagram) (tick : ℕ) (source : SockAddr) :
    rudpQueued (rudpPollDatagram P r tick source datagram).2 =
      rudpQueued r ++ if data ≠ [] ∧ data.length ≤ rudpMaxPayloadSize then [data] else [] := by
  obtain ⟨-, -, -, hfits, -, rfl⟩ := rudpSend_eq_some.mp hsend
  rw [rudpPollDatagram_encrypt hP hr hfits]
  exact rudpProcessInner_plain hz (hr.at_now tick) hflag hfits source

/-- The receiver queues exactly the payload; an empty one is a keep-alive. -/
def Delivered (P : Primitives) (r : RudpContext) (tick : ℕ) (source : SockAddr)
    (data datagram : List UInt8) : Prop :=
  rudpQueued (rudpPollDatagram P r tick source datagram).2 =
    rudpQueued r ++ if data = [] then [] else [data]

/-- **When a sent payload is deliverable.** For every payload for which `rudp_send` is
    positive, in both formats, compressed or not and with any padding, a mirrored peer
    with room queues exactly the payload if and only if it fits a block of the ring. -/
theorem send_deliverable_iff (P : Primitives) (hP : P.aead.RoundTrips)
    (hz : P.zlib.RoundTrips) (s r : RudpContext) (io : RudpSendIo) (hr : PeerReady s r io)
    (data : List UInt8) (flag : UInt8) (hflag : isCompressed flag = false)
    (datagram : List UInt8) (hsend : (rudpSend P s io data flag).2 = some datagram)
    (tick : ℕ) (source : SockAddr) :
    Delivered P r tick source data datagram ↔ data.length ≤ rudpMaxPayloadSize := by
  unfold Delivered
  rw [rudpPoll_of_send hP hz hr hflag hsend, List.append_cancel_left_eq]
  by_cases hnil : data = []
  · simp [hnil]
  · by_cases hlen : data.length ≤ rudpMaxPayloadSize
    · simp [hnil, hlen]
    · simp [hnil, hlen]

/-- A cipher that leaves the text as it is and checks a tag of zeros. -/
def plainAead : Aead where
  encrypt := fun _ _ plain => (plain, List.replicate rudpPacketMacSizeV2 0)
  decrypt := fun _ _ cipher tag =>
    if tag = List.replicate rudpPacketMacSizeV2 0 then some cipher else none

theorem plainAead_roundTrips : plainAead.RoundTrips where
  length_cipher := fun _ _ _ => rfl
  length_tag := by
    intro key iv plain
    exact List.length_replicate
  decrypt_encrypt := by
    intro key iv plain
    simp [plainAead]

/-- A hash that cuts, a cipher that copies and a compression of its own. -/
def samplePrimitives : Primitives where
  sha1 := fun input => input.take rudpPacketKeySizeV1
  aead := plainAead
  zlib := headerZlib

/-- The clock and the socket of a sender. -/
def sampleIo : RudpSendIo where
  tick := 1000
  padRand := 0
  sent := true

/-- `sampleContext` is its own mirror image. -/
theorem sample_peerReady : PeerReady sampleContext sampleContext sampleIo where
  nextIv := List.length_replicate
  nextIvV2 := List.length_replicate
  mtu := by decide
  tick := by decide
  version := rfl
  key := rfl
  keyV2 := rfl
  cookie := rfl
  cookieLt := by decide
  window := by decide
  ring := ⟨by decide, by decide, by decide⟩
  room := by decide

/-- Sending from `sampleContext` succeeds up to the sender's own limit. -/
theorem sample_send (data : List UInt8) (h : data.length ≤ 1977) :
    (rudpSend samplePrimitives sampleContext sampleIo data 0).2 =
      some (rudpEncrypt samplePrimitives sampleContext
        (rudpPlain sampleContext sampleIo data 0)) := by
  have henc : rudpEncode samplePrimitives sampleContext data 0 = (data, 0) := rfl
  rw [rudpSend_eq_some, henc]
  refine ⟨rfl, rfl, rfl, ?_, rfl, rfl⟩
  have hlimit : rudpTmpBufSize - rudpPacketIvSizeV1 - 8 = 2020 := rfl
  have hfixed : rudpIvSize sampleContext.version + rudpHeaderSize = 43 := rfl
  rw [rudpFits, hlimit, hfixed]
  simp only [Bool.or_eq_true, decide_eq_true_eq]
  omega

/-- A payload of three bytes arrives. -/
theorem send_deliverable_small :
    Delivered samplePrimitives sampleContext 1001 ⟨false, 9, 9⟩ [1, 2, 3]
        (rudpEncrypt samplePrimitives sampleContext
          (rudpPlain sampleContext sampleIo [1, 2, 3] 0)) ↔
      [1, 2, 3].length ≤ rudpMaxPayloadSize :=
  send_deliverable_iff samplePrimitives plainAead_roundTrips headerZlib_roundTrips
    sampleContext sampleContext sampleIo sample_peerReady [1, 2, 3] 0 (by decide) _
    (sample_send [1, 2, 3] (by decide)) 1001 ⟨false, 9, 9⟩

/-- A payload of 1601 bytes is sent and not queued by the peer. -/
theorem send_not_deliverable :
    PeerReady sampleContext sampleContext sampleIo ∧
      ∃ datagram, (rudpSend samplePrimitives sampleContext sampleIo
          (List.replicate 1601 7) 0).2 = some datagram ∧
        ¬ Delivered samplePrimitives sampleContext 1001 ⟨false, 9, 9⟩
          (List.replicate 1601 7) datagram := by
  have hlen : (List.replicate 1601 (7 : UInt8)).length = 1601 := List.length_replicate
  generalize List.replicate 1601 (7 : UInt8) = data at hlen
  have hsend := sample_send data (by omega)
  have hmax : rudpMaxPayloadSize = 1600 := rfl
  have hnil : data ≠ [] := by
    rintro rfl
    simp at hlen
  refine ⟨sample_peerReady, _, hsend, ?_⟩
  rw [Delivered, rudpPoll_of_send plainAead_roundTrips headerZlib_roundTrips sample_peerReady
    (by decide) hsend, List.append_cancel_left_eq, if_neg (by omega), if_neg hnil]
  simp

end SoftEther.Accel
