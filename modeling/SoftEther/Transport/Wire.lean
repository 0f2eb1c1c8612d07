import SoftEther.Crypto.Rc4
import SoftEther.Lib.BigEndian
import SoftEther.Transport.Session

namespace SoftEther.Transport

open Lib SoftEther.Crypto

/-!
# Segments on the wire (`rt_send_segment_now`, `rt_handle_udp_packet`)

A datagram is `SIGN | IV | body`, where the body is encrypted with RC4 and holds the two
ticks, the acknowledgements, the number, the payload and the padding.  SHA-1 is an
arbitrary function with values of 20 bytes.

* `rtSegmentBytes` — the datagram of a segment;
* `rtReceive` — what signature check, decryption and header parsing make of a datagram;
* `rtReceive_segmentBytes` — the round trip between endpoints with mirrored keys;
* `rtHandleUdpPacket_segmentBytes` — what the receiver does with the datagram.
-/

/-- `RUDP_T_MAX_PACKET_SIZE`. -/
def rudpTMaxPacketSize : ℕ :=
  rudpTMaxSegmentSize + 8 * rudpTMaxNumAck + rudpTSha1Size * 2 + 8 * 4 + 4 + 255

/-- `sha1_hash`. -/
abbrev Sha1 := List UInt8 → Sha1Value

/-- The keys of an endpoint: `key_send`, `key_recv`, and `svc_name_hash` when it is valid. -/
structure RtKeys where
  keySend : Sha1Value
  keyRecv : Sha1Value
  svcNameHash : Option Sha1Value

/-- The other endpoint's keys: what one signs with, the other verifies with. -/
structure RtKeys.Mirrors (k k' : RtKeys) : Prop where
  recv : k'.keyRecv = k.keySend
  send : k'.keySend = k.keyRecv
  svc : k'.svcNameHash = k.svcNameHash

/-! ### Fields -/

/-- `rt_w32`. -/
def rtW32 (v : ℕ) : List UInt8 :=
  [UInt8.ofNat (v >>> 24), UInt8.ofNat (v >>> 16), UInt8.ofNat (v >>> 8), UInt8.ofNat v]

/-- `rt_r64`. -/
def rtR64 (p : List UInt8) : ℕ := beVal (p.take 8)

/-- `rt_r32`. -/
def rtR32 (p : List UInt8) : ℕ := beVal (p.take 4)

theorem rtW64_eq (v : ℕ) : rtW64 v = beBytes 8 v := by
  simp [rtW64, beBytes, Nat.shiftRight_eq_div_pow]

theorem rtW32_eq (v : ℕ) : rtW32 v = beBytes 4 v := by
  simp [rtW32, beBytes, Nat.shiftRight_eq_div_pow]

@[simp] theorem rtW64_length (v : ℕ) : (rtW64 v).length = 8 := rfl

@[simp] theorem rtW32_length (v : ℕ) : (rtW32 v).length = 4 := rfl

/-- A 64-bit field is read back. -/
theorem rtR64_append {v : ℕ} (h : v < 2 ^ 64) (rest : List UInt8) :
    rtR64 (rtW64 v ++ rest) = v := by
  have htake : (rtW64 v ++ rest).take 8 = rtW64 v := rfl
  rw [rtR64, htake, rtW64_eq]
  exact beVal_beBytes_of_lt (by simpa using h)

/-- A 32-bit field is read back. -/
theorem rtR32_append {v : ℕ} (h : v < 2 ^ 32) (rest : List UInt8) :
    rtR32 (rtW32 v ++ rest) = v := by
  have htake : (rtW32 v ++ rest).take 4 = rtW32 v := rfl
  rw [rtR32, htake, rtW32_eq]
  exact beVal_beBytes_of_lt (by simpa using h)

theorem drop_rtW64 (v : ℕ) (rest : List UInt8) : (rtW64 v ++ rest).drop 8 = rest := rfl

theorem drop_rtW32 (v : ℕ) (rest : List UInt8) : (rtW32 v ++ rest).drop 4 = rest := rfl

/-! ### The sender -/

/-- The length of the padding: 1 to 255. -/
def rtPadlen (rand : ℕ) : UInt8 := UInt8.ofNat (rand % 255) + 1

/-- What is encrypted. -/
def rtPlain (p : RtPacket) (padlen : UInt8) : List UInt8 :=
  rtW64 p.myTick ++ (rtW64 p.yourTick ++ (rtW64 p.maxAck ++ (rtW32 p.acks.length ++
    (p.acks.flatMap rtW64 ++ (rtW64 p.seq ++ (p.payload ++
      List.replicate padlen.toNat padlen))))))

/-- The RC4 key of one datagram. -/
def rtCryptKey (sha1 : Sha1) (iv key : List UInt8) : List UInt8 := (sha1 (iv ++ key)).1

/-- The signature: SHA-1 over the datagram with the key in the place of the signature,
    combined with the service name's hash in the DNS and ICMP modes. -/
def rtSign (sha1 : Sha1) (svcNameHash : Option Sha1Value) (pkt : List UInt8) : List UInt8 :=
  match svcNameHash with
  | none => (sha1 pkt).1
  | some hash => List.zipWith (· ^^^ ·) (sha1 pkt).1 hash.1

/-- IV and encrypted body of a datagram. -/
def rtSealed (sha1 : Sha1) (k : RtKeys) (iv : Sha1Value) (padlen : UInt8) (p : RtPacket) :
    List UInt8 :=
  iv.1 ++ rc4Crypt (rtCryptKey sha1 iv.1 k.keySend.1) (rtPlain p padlen)

/-- The datagram of a packet. -/
def rtEncode (sha1 : Sha1) (k : RtKeys) (iv : Sha1Value) (padlen : UInt8) (p : RtPacket) :
    List UInt8 :=
  rtSign sha1 k.svcNameHash (k.keySend.1 ++ rtSealed sha1 k iv padlen p) ++
    rtSealed sha1 k iv padlen p

/-- **The datagram `rt_send_segment_now` builds**: `tick` is the clock, `rand` the random
    number for the padding. -/
def rtSegmentBytes (sha1 : Sha1) (k : RtKeys) (iv : Sha1Value) (rand tick : ℕ)
    (t : RtTransport) (seq : ℕ) (data : SegmentData) : List UInt8 :=
  rtEncode sha1 k iv (rtPadlen rand) (rtPacketNow tick t seq data.1)

/-! ### The receiver -/

/-- The signature of a datagram, compared with the one the receiver computes. -/
def rtSignOk (sha1 : Sha1) (k : RtKeys) (pkt : List UInt8) : Bool :=
  pkt.take rudpTSha1Size ==
    rtSign sha1 k.svcNameHash (k.keyRecv.1 ++ pkt.drop rudpTSha1Size)

/-- `num_ack` acknowledgements read one after the other. -/
def rtReadAcks : ℕ → List UInt8 → List ℕ
  | 0, _ => []
  | n + 1, p => rtR64 p :: rtReadAcks n (p.drop 8)

@[simp] theorem rtReadAcks_length (n : ℕ) (p : List UInt8) : (rtReadAcks n p).length = n := by
  induction n generalizing p with
  | zero => rfl
  | succ n ih => rw [rtReadAcks, List.length_cons, ih]

/-- The header of a decrypted body, without its padding: the read position moves as in the
    source. -/
def rtParseHeader (encLen : ℕ) (enc : List UInt8) : Option RtPacket :=
  let p1 := enc.drop 8
  let p2 := p1.drop 8
  let p3 := p2.drop 8
  let p4 := p3.drop 4
  let numAck := rtR32 p3
  if h : numAck > rudpTMaxNumAck then none
  else if encLen < 8 + 8 + 8 + 4 + numAck * 8 + 8 then none
  else
    let p5 := p4.drop (8 * numAck)
    some
      { myTick := rtR64 enc
        yourTick := rtR64 p1
        maxAck := rtR64 p2
        acks := rtReadAcks numAck p4
        seq := rtR64 p5
        payload := (p5.drop 8).take (encLen - (8 + 8 + 8 + 4 + numAck * 8 + 8))
        acks_le := by rw [rtReadAcks_length]; exact Nat.le_of_not_lt h }

/-- The decrypted body: the last byte is the length of the padding. -/
def rtParse (enc : List UInt8) : Option RtPacket :=
  if enc.length < 1 then none
  else
    let padlen := (enc.getLastD 0).toNat
    if padlen = 0 then none
    else if enc.length < padlen then none
    else if enc.length - padlen < 8 + 8 + 8 + 4 + 8 then none
    else rtParseHeader (enc.length - padlen) enc

/-- **What `rt_handle_udp_packet` makes of a datagram** before it looks at the session: at
    most `RUDP_T_MAX_PACKET_SIZE` bytes are taken. -/
def rtReceive (sha1 : Sha1) (k : RtKeys) (buf : List UInt8) : RtDatagram where
  size := buf.length
  packet :=
    let pkt := buf.take rudpTMaxPacketSize
    if !rtSignOk sha1 k pkt then none
    else if pkt.length < rudpTSha1Size * 2 then none
    else
      let iv := (pkt.drop rudpTSha1Size).take rudpTSha1Size
      rtParse (rc4Crypt (rtCryptKey sha1 iv k.keyRecv.1) (pkt.drop (rudpTSha1Size * 2)))

/-! ### Lengths -/

theorem rtPadlen_toNat (rand : ℕ) : (rtPadlen rand).toNat = rand % 255 + 1 := by
  have hlt : rand % 255 < 255 := Nat.mod_lt _ (by decide)
  rw [rtPadlen, UInt8.toNat_add, UInt8.toNat_ofNat']
  show (rand % 255 % 2 ^ 8 + 1) % 2 ^ 8 = _
  omega

/-- Every padding length occurs. -/
theorem rtPadlen_surjective {n : ℕ} (h1 : 1 ≤ n) (h2 : n ≤ 255) :
    (rtPadlen (n - 1)).toNat = n := by
  rw [rtPadlen_toNat]
  omega

@[simp] theorem flatMap_rtW64_length (acks : List ℕ) :
    (acks.flatMap rtW64).length = 8 * acks.length := by
  induction acks with
  | nil => rfl
  | cons a acks ih => rw [List.flatMap_cons, List.length_append, ih, rtW64_length,
      List.length_cons]; omega

theorem rtPlain_length (p : RtPacket) (padlen : UInt8) :
    (rtPlain p padlen).length =
      8 + 8 + 8 + 4 + 8 * p.acks.length + 8 + p.payload.length + padlen.toNat := by
  simp only [rtPlain, List.length_append, rtW64_length, rtW32_length, flatMap_rtW64_length,
    List.length_replicate]
  omega

theorem rtSign_length (sha1 : Sha1) (svc : Option Sha1Value) (pkt : List UInt8) :
    (rtSign sha1 svc pkt).length = rudpTSha1Size := by
  cases svc with
  | none => exact (sha1 pkt).2
  | some hash =>
    show (List.zipWith _ _ _).length = _
    rw [List.length_zipWith, (sha1 pkt).2, hash.2, Nat.min_self]

theorem rtEncode_length (sha1 : Sha1) (k : RtKeys) (iv : Sha1Value) (padlen : UInt8)
    (p : RtPacket) :
    (rtEncode sha1 k iv padlen p).length = rudpTSha1Size * 2 + (rtPlain p padlen).length := by
  rw [rtEncode, rtSealed, List.length_append, List.length_append, rtSign_length, iv.2,
    rc4Crypt_length]
  omega

/-- **A segment fits its buffer**, the largest one exactly. -/
theorem rtSegmentBytes_length_le (sha1 : Sha1) (k : RtKeys) (iv : Sha1Value) (rand tick : ℕ)
    (t : RtTransport) (seq : ℕ) (data : SegmentData) :
    (rtSegmentBytes sha1 k iv rand tick t seq data).length ≤ rudpTMaxPacketSize := by
  have hacks := (rtPacketNow tick t seq data.1).acks_le
  have hpay : (rtPacketNow tick t seq data.1).payload.length ≤ rudpTMaxSegmentSize := data.2
  have hpad : (rtPadlen rand).toNat ≤ 255 := by
    rw [rtPadlen_toNat]
    exact Nat.mod_lt rand (by decide)
  have hlen := rtEncode_length sha1 k iv (rtPadlen rand) (rtPacketNow tick t seq data.1)
  rw [rtPlain_length] at hlen
  have hmax : rudpTMaxPacketSize =
      rudpTMaxSegmentSize + 8 * rudpTMaxNumAck + rudpTSha1Size * 2 + 8 * 4 + 4 + 255 := rfl
  rw [rtSegmentBytes]
  omega

/-! ### Round trip -/

/-- The numbers of a packet are 64-bit numbers. -/
structure RtPacket.Fits64 (p : RtPacket) : Prop where
  myTick : p.myTick < 2 ^ 64
  yourTick : p.yourTick < 2 ^ 64
  maxAck : p.maxAck < 2 ^ 64
  acks : ∀ a ∈ p.acks, a < 2 ^ 64
  seq : p.seq < 2 ^ 64

/-- The acknowledgements are read back. -/
theorem rtReadAcks_append {acks : List ℕ} (h : ∀ a ∈ acks, a < 2 ^ 64) (rest : List UInt8) :
    rtReadAcks acks.length (acks.flatMap rtW64 ++ rest) = acks ∧
      (acks.flatMap rtW64 ++ rest).drop (8 * acks.length) = rest := by
  induction acks with
  | nil => exact ⟨rfl, rfl⟩
  | cons a acks ih =>
    obtain ⟨hread, -⟩ := ih (fun b hb => h b (List.mem_cons_of_mem a hb))
    constructor
    · rw [List.flatMap_cons, List.append_assoc, List.length_cons, rtReadAcks,
        rtR64_append (h a List.mem_cons_self), drop_rtW64, hread]
    · rw [← flatMap_rtW64_length, List.drop_left]

variable {p : RtPacket} {k k' : RtKeys}

/-- The header is read back, with the payload that precedes the padding. -/
theorem rtParseHeader_plain (h : p.Fits64) (padlen : UInt8) :
    rtParseHeader ((rtPlain p padlen).length - padlen.toNat) (rtPlain p padlen) = some p := by
  have hlen := rtPlain_length p padlen
  have hnum : p.acks.length < 2 ^ 32 := lt_of_le_of_lt p.acks_le (by decide)
  obtain ⟨hacks, hdrop⟩ := rtReadAcks_append h.acks
    (rtW64 p.seq ++ (p.payload ++ List.replicate padlen.toNat padlen))
  rw [rtParseHeader]
  dsimp only
  rw [hlen, rtPlain]
  -- the read position, field by field
  simp only [drop_rtW64, drop_rtW32, rtR32_append hnum, rtR64_append h.myTick,
    rtR64_append h.yourTick, rtR64_append h.maxAck, hacks, hdrop, rtR64_append h.seq]
  have hpay : (p.payload ++ List.replicate padlen.toNat padlen).take
      (8 + 8 + 8 + 4 + 8 * p.acks.length + 8 + p.payload.length + padlen.toNat - padlen.toNat -
        (8 + 8 + 8 + 4 + p.acks.length * 8 + 8)) = p.payload := by
    have hsize : 8 + 8 + 8 + 4 + 8 * p.acks.length + 8 + p.payload.length + padlen.toNat -
        padlen.toNat - (8 + 8 + 8 + 4 + p.acks.length * 8 + 8) = p.payload.length := by omega
    rw [hsize, List.take_left]
  rw [dif_neg (Nat.not_lt.mpr p.acks_le), if_neg (by omega), hpay]

/-- **The body round-trips.** -/
theorem rtParse_plain (h : p.Fits64) {padlen : UInt8} (hpad : padlen ≠ 0) :
    rtParse (rtPlain p padlen) = some p := by
  have hlen := rtPlain_length p padlen
  have hpos : padlen.toNat ≠ 0 := fun h0 => hpad (UInt8.toNat_inj.mp h0)
  have hlast : (rtPlain p padlen).getLastD 0 = padlen := by
    obtain ⟨n, hn⟩ := Nat.exists_eq_succ_of_ne_zero hpos
    rw [rtPlain, hn, List.replicate_succ']
    simp only [← List.append_assoc]
    rw [List.getLastD_concat]
  rw [rtParse, if_neg (by omega)]
  dsimp only
  rw [hlast, if_neg hpos, if_neg (by omega), if_neg (by omega)]
  exact rtParseHeader_plain h padlen

/-- The signature is verified by the endpoint with the mirrored keys. -/
theorem rtSignOk_encode (sha1 : Sha1) (hk : k.Mirrors k') (iv : Sha1Value) (padlen : UInt8)
    (p : RtPacket) : rtSignOk sha1 k' (rtEncode sha1 k iv padlen p) = true := by
  have hsign := rtSign_length sha1 k.svcNameHash (k.keySend.1 ++ rtSealed sha1 k iv padlen p)
  rw [rtSignOk, rtEncode, List.take_left' hsign, List.drop_left' hsign, hk.recv, hk.svc,
    beq_self_eq_true]

/-- **The datagram round-trips** between endpoints with mirrored keys. -/
theorem rtReceive_encode (sha1 : Sha1) (hk : k.Mirrors k') (iv : Sha1Value) {padlen : UInt8}
    (hpad : padlen ≠ 0) (hp : p.Fits64)
    (hfit : (rtEncode sha1 k iv padlen p).length ≤ rudpTMaxPacketSize) :
    (rtReceive sha1 k' (rtEncode sha1 k iv padlen p)).packet = some p := by
  have hlen := rtEncode_length sha1 k iv padlen p
  have hsign := rtSign_length sha1 k.svcNameHash (k.keySend.1 ++ rtSealed sha1 k iv padlen p)
  have hsealed : (rtEncode sha1 k iv padlen p).drop rudpTSha1Size =
      rtSealed sha1 k iv padlen p := by
    rw [rtEncode, List.drop_left' hsign]
  have hiv : (rtSealed sha1 k iv padlen p).take rudpTSha1Size = iv.1 := by
    rw [rtSealed, List.take_left' iv.2]
  have hbody : (rtEncode sha1 k iv padlen p).drop (rudpTSha1Size * 2) =
      rc4Crypt (rtCryptKey sha1 iv.1 k.keySend.1) (rtPlain p padlen) := by
    rw [Nat.mul_two, ← List.drop_drop, hsealed, rtSealed, List.drop_left' iv.2]
  show (if !rtSignOk sha1 k' ((rtEncode sha1 k iv padlen p).take rudpTMaxPacketSize) then none
    else _) = _
  rw [List.take_of_length_le hfit, rtSignOk_encode sha1 hk, if_neg (by decide),
    if_neg (by omega), hsealed, hiv, hbody, hk.recv]
  dsimp only
  rw [rc4Crypt_rc4Crypt]
  exact rtParse_plain hp hpad

/-- The numbers of a session that its segments carry are 64-bit numbers. -/
structure RtSession.Fits64 (se : RtSession) : Prop where
  yourTick : se.yourTick < 2 ^ 64
  lastRecvCompleteSeq : se.lastRecvCompleteSeq < 2 ^ 64
  replyAcks : ∀ a ∈ se.replyAcks, a < 2 ^ 64

theorem rtPacketNow_fits64 {t : RtTransport} (h : t.se.Fits64) {tick seq : ℕ}
    (htick : tick < 2 ^ 64) (hseq : seq < 2 ^ 64) (data : List UInt8) :
    (rtPacketNow tick t seq data).Fits64 where
  myTick := htick
  yourTick := h.yourTick
  maxAck := h.lastRecvCompleteSeq
  acks := fun a ha => h.replyAcks a (List.mem_of_mem_take ha)
  seq := hseq

/-- The datagram of a segment is received as the packet that was sent. -/
theorem rtReceive_segmentBytes (sha1 : Sha1) (hk : k.Mirrors k') (iv : Sha1Value) (rand : ℕ)
    {tick seq : ℕ} (htick : tick < 2 ^ 64) (hseq : seq < 2 ^ 64) {t : RtTransport}
    (ht : t.se.Fits64) (data : SegmentData) :
    (rtReceive sha1 k' (rtSegmentBytes sha1 k iv rand tick t seq data)).packet =
      some (rtPacketNow tick t seq data.1) := by
  have hpad : rtPadlen rand ≠ 0 := by
    intro h0
    have h := rtPadlen_toNat rand
    rw [h0] at h
    exact absurd h (by simp)
  exact rtReceive_encode sha1 hk iv hpad (rtPacketNow_fits64 ht htick hseq data.1)
    (rtSegmentBytes_length_le sha1 k iv rand tick t seq data)

/-- A packet with an ordinary number whose echoed tick is not in the future is processed to
    the end. -/
theorem rtHandlePacket_ordinary {now srcPort : ℕ} {u : RtTransport} (hnow : p.yourTick ≤ now)
    (h0 : p.seq ≠ 0) (hmagic : p.seq ≠ u.se.magicDisconnect) : rtHandlePacket now srcPort u p =
      let v := rtEstablish (rtProcessPayload (rtUpdateTicks now (rtProcessAcks u p) p) p)
      { v with se := { v.se with yourPort := srcPort } } := by
  have hfold : ∀ (acks : List ℕ) (v : RtTransport),
      (acks.foldl rtProcessAck v).se.magicDisconnect = v.se.magicDisconnect := by
    intro acks
    induction acks with
    | nil => exact fun v => rfl
    | cons a acks ih => exact fun v => ih (rtProcessAck v a)
  have hkeep : (rtUpdateTicks now (rtProcessAcks u p) p).se.magicDisconnect =
      u.se.magicDisconnect := by
    show (rtProcessAcks u p).se.magicDisconnect = _
    unfold rtProcessAcks
    rw [hfold]
    split <;> rfl
  unfold rtHandlePacket
  rw [if_neg (Nat.not_lt.mpr hnow)]
  dsimp only
  rw [if_neg h0, hkeep, if_neg hmagic]

/-- **Codec round trip.** The datagram of a segment fits its buffer. An endpoint with
    mirrored keys that is not disconnected accepts its signature, recovers number, payload,
    acknowledgements and cumulative acknowledgement, and processes them, unless the tick
    the segment echoes is in the receiver's future. -/
theorem rtHandleUdpPacket_segmentBytes (sha1 : Sha1) {k k' : RtKeys} (hk : k.Mirrors k')
    (iv : Sha1Value) (rand : ℕ) {t u : RtTransport} (ht : t.se.Fits64)
    (hacks : t.se.replyAcks.length ≤ rudpTMaxNumAck) {tick seq : ℕ} (htick : tick < 2 ^ 64)
    (hseq : seq < 2 ^ 64) (h0 : seq ≠ 0) (hmagic : seq ≠ u.se.magicDisconnect)
    (data : SegmentData) (hlive : u.se.status ≠ .disconnected) {now : ℕ}
    (hnow : t.se.yourTick ≤ now) (srcIp srcPort : ℕ) :
    (rtSegmentBytes sha1 k iv rand tick t seq data).length ≤ rudpTMaxPacketSize ∧
      rtSignOk sha1 k' (rtSegmentBytes sha1 k iv rand tick t seq data) = true ∧
      ∃ p : RtPacket,
        (rtReceive sha1 k' (rtSegmentBytes sha1 k iv rand tick t seq data)).packet = some p ∧
        p.seq = seq ∧ p.payload = data.1 ∧ p.acks = t.se.replyAcks ∧
        p.maxAck = t.se.lastRecvCompleteSeq ∧
        rtHandleUdpPacket now srcIp srcPort u
            (rtReceive sha1 k' (rtSegmentBytes sha1 k iv rand tick t seq data)) =
          let v := rtEstablish (rtProcessPayload (rtUpdateTicks now (rtProcessAcks u p) p) p)
          { v with se := { v.se with yourPort := srcPort } } := by
  have hfit := rtSegmentBytes_length_le sha1 k iv rand tick t seq data
  have hpacket := rtReceive_segmentBytes sha1 hk iv rand htick hseq ht data
  have hlong : rudpTSha1Size * 2 ≤ (rtSegmentBytes sha1 k iv rand tick t seq data).length := by
    rw [rtSegmentBytes, rtEncode_length]
    exact Nat.le_add_right _ _
  refine ⟨hfit, rtSignOk_encode sha1 hk iv _ _, rtPacketNow tick t seq data.1, hpacket, rfl, rfl,
    List.take_of_length_le hacks, rfl, ?_⟩
  have h20 : rudpTSha1Size = 20 := rfl
  have hsize : ¬ (rtReceive sha1 k' (rtSegmentBytes sha1 k iv rand tick t seq data)).size < 20 := by
    show ¬ (rtSegmentBytes sha1 k iv rand tick t seq data).length < 20
    omega
  rw [rtHandleUdpPacket, if_neg hlive, h20, if_neg hsize, if_neg hsize, hpacket]
  exact rtHandlePacket_ordinary hnow h0 hmagic

/-- Twenty zero bytes. -/
def zeroSha1 : Sha1Value := ⟨List.replicate 20 0, rfl⟩

/-- A fresh session with two acknowledgements to send. -/
def sampleSender : RtTransport :=
  { rtInit sampleConnect with se := { (rtInit sampleConnect).se with replyAcks := [9, 7] } }

/-- Keys of zeros: they mirror themselves. -/
def zeroKeys : RtKeys := ⟨zeroSha1, zeroSha1, some zeroSha1⟩

/-- A segment of three bytes with two acknowledgements, under keys of zeros. -/
theorem rtHandleUdpPacket_segmentBytes_sample :
    (rtReceive (fun _ => zeroSha1) zeroKeys
      (rtSegmentBytes (fun _ => zeroSha1) zeroKeys zeroSha1 3 1 sampleSender 5
        ⟨[1, 2, 3], by decide⟩)).packet.map (fun p => (p.seq, p.payload, p.acks)) =
      some (5, [1, 2, 3], [9, 7]) := by
  obtain ⟨-, -, p, hp, hseq, hpay, hacks, -⟩ :=
    rtHandleUdpPacket_segmentBytes (fun _ => zeroSha1)
      (show zeroKeys.Mirrors zeroKeys from ⟨rfl, rfl, rfl⟩) zeroSha1 3 (t := sampleSender)
      (u := rtInit sampleConnect) ⟨by decide, by decide, by decide⟩ (by decide)
      (show 1 < 2 ^ 64 by decide) (show 5 < 2 ^ 64 by decide) (by decide) (by decide)
      ⟨[1, 2, 3], by decide⟩ (by decide) (show 0 ≤ 1 by decide) 1 2
  rw [hp, Option.map_some, hseq, hpay, hacks]
  rfl

end SoftEther.Transport
