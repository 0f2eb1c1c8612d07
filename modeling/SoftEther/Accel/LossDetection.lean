import SoftEther.Accel.Inner
import SoftEther.Lib.Detour
import SoftEther.Lib.Transition

namespace SoftEther.Accel

open Lib

/-!
# Loss detection and the order of arrival

`rudp_process_inner` counts a loss when the peer's clock has advanced by more than
`RUDP_PEER_TICK_LOSS_GAP` since the packet before.  It remembers the tick of every packet it
accepts, also of one that arrives late.

* `Arrival`, `receiveStep` — a decrypted packet and the time it is read at;
* `Copies` — a sequence with copies of packets inserted, each behind the packet it copies and
  inside the tick window;
* `receive_gaps` — the gaps counted over accepted packets are the jumps of their ticks;
* `copies_accepted` — the copies are accepted as well;
* `gap_events_stable_iff` — copies add no gap exactly when the ticks that can still come
  again are close together.
-/

/-! ### Arrivals -/

/-- A decrypted packet, where it came from, and the clock when it is read. -/
structure Arrival where
  now : ℕ
  buf : List UInt8
  source : SockAddr
  verifyPadding : Bool

/-- `rudp_process_inner` on a datagram, at the time of its arrival. -/
def receive (z : Zlib) (ctx : RudpContext) (a : Arrival) : Bool × RudpContext :=
  rudpProcessInner z { ctx with now := a.now } a.buf a.source a.verifyPadding

/-- The context behind a datagram. -/
def receiveStep (z : Zlib) (ctx : RudpContext) (a : Arrival) : RudpContext := (receive z ctx a).2

/-- Every packet of the sequence is accepted. -/
def Accepted (z : Zlib) (ctx : RudpContext) (as : List Arrival) : Prop :=
  Along (receiveStep z) (fun ctx a => (receive z ctx a).1 = true) ctx as

/-- The gap events after a sequence of packets. -/
def gapEvents (z : Zlib) (ctx : RudpContext) (as : List Arrival) : ℕ :=
  (run (receiveStep z) ctx as).peerTickGapEvents

/-- The peer's tick in a packet. -/
def tickOf (myCookie : ℕ) (a : Arrival) : ℕ :=
  ((rudpParseInner myCookie a.verifyPadding a.buf).map InnerPacket.myTick).getD 0

/-! ### Ticks -/

/-- A packet with tick `t` after one with tick `u` counts as a loss. -/
def IsGap (u t : ℕ) : Prop := u ≠ 0 ∧ t > add64 u rudpPeerTickLossGap

instance decidableIsGap : DecidableRel IsGap := fun u t =>
  inferInstanceAs (Decidable (u ≠ 0 ∧ t > add64 u rudpPeerTickLossGap))

/-- The window check against the highest tick so far. -/
def inWindow (high t : ℕ) : Bool := !(t < high && high - t ≥ rudpWindowSizeMsec)

/-- The highest tick after some packets. -/
def highest (high : ℕ) (ticks : List ℕ) : ℕ := ticks.foldl max high

/-- A packet with tick `t` has come and would be accepted once more. -/
def Repeatable (high : ℕ) (ticks : List ℕ) (t : ℕ) : Prop :=
  t ∈ ticks ∧ inWindow (highest high ticks) t = true

/-- **A late copy**: the bytes of a packet that came before, inside the tick window. -/
def LateCopy (ctx : RudpContext) (before : List Arrival) (s : Arrival) : Prop :=
  (∃ a ∈ before, s.buf = a.buf ∧ s.verifyPadding = a.verifyPadding) ∧
    inWindow (highest ctx.lastRecvYourTick (before.map (tickOf ctx.myCookie)))
      (tickOf ctx.myCookie s) = true

/-- `ys` is `xs` with late copies inserted. -/
def Copies (ctx : RudpContext) (xs ys : List Arrival) : Prop := Detour (LateCopy ctx) [] xs ys

/-- At every point of the sequence, no two of the ticks that can still come again are a gap
    apart, and one of these is a gap before the next tick only if the last one is. -/
def TicksClose (ctx : RudpContext) (ticks : List ℕ) : Prop :=
  ∀ before after, ticks = before ++ after →
    SafeAt IsGap (Repeatable ctx.lastRecvYourTick) ctx.lastPeerTickSeen before after

/-! ### One packet -/

/-- The payload of the packet can be queued: it is not compressed, or decompresses. -/
def Decodes (z : Zlib) (p : InnerPacket) : Prop :=
  ¬ (p.data.length > 0 ∧ isCompressed p.flag = true ∧
    uncompressData z p.data rudpCompressBufSize = none)

/-- What decides whether a packet is accepted. -/
structure Admits (z : Zlib) (myCookie high : ℕ) (a : Arrival) (p : InnerPacket) : Prop where
  parse : rudpParseInner myCookie a.verifyPadding a.buf = some p
  window : inWindow high p.myTick = true
  decodes : Decodes z p

variable {z : Zlib} {a : Arrival} {high t : ℕ} {ctx : RudpContext} {before : List Arrival}

theorem Admits.tickOf {myCookie : ℕ} {p : InnerPacket} (h : Admits z myCookie high a p) :
    tickOf myCookie a = p.myTick := by
  rw [Accel.tickOf, h.parse]
  rfl

theorem receive_accepted_iff (z : Zlib) (ctx : RudpContext) (a : Arrival) :
    (receive z ctx a).1 = true ↔ ∃ p, Admits z ctx.myCookie ctx.lastRecvYourTick a p := by
  unfold receive rudpProcessInner
  cases hparse : rudpParseInner ctx.myCookie a.verifyPadding a.buf with
  | none =>
    refine iff_of_false (by simp) ?_
    rintro ⟨p, hp⟩
    rw [hp.parse] at hparse
    cases hparse
  | some p =>
    dsimp only
    have hwin : rudpInWindow { ctx with now := a.now } p.myTick =
        inWindow ctx.lastRecvYourTick p.myTick := rfl
    rw [hwin]
    cases hw : inWindow ctx.lastRecvYourTick p.myTick with
    | false =>
      refine iff_of_false (by simp) ?_
      rintro ⟨q, hq⟩
      obtain rfl : p = q := Option.some.inj (hparse.symm.trans hq.parse)
      rw [hq.window] at hw
      cases hw
    | true =>
      simp only [Bool.not_true, Bool.false_eq_true, if_false]
      rw [← Bool.not_eq_false, rudpQueueData_rejects_iff]
      constructor
      · exact fun h => ⟨p, hparse, hw, h⟩
      · rintro ⟨q, hq⟩
        obtain rfl : p = q := Option.some.inj (hparse.symm.trans hq.parse)
        exact hq.decodes

/-- What an accepted packet does to the ticks and to the gap counter. -/
structure TicksAfter (ctx ctx' : RudpContext) (t : ℕ) : Prop where
  myCookie : ctx'.myCookie = ctx.myCookie
  lastRecvYourTick : ctx'.lastRecvYourTick = max ctx.lastRecvYourTick t
  lastPeerTickSeen : ctx'.lastPeerTickSeen = t
  peerTickGapEvents : ctx'.peerTickGapEvents =
    ctx.peerTickGapEvents + if IsGap ctx.lastPeerTickSeen t then 1 else 0

theorem rudpAccept_ticks (ctx : RudpContext) (source : SockAddr) (p : InnerPacket) :
    TicksAfter ctx (rudpAccept ctx source p) p.myTick := by
  have hmax : (if p.myTick > ctx.lastRecvYourTick then p.myTick else ctx.lastRecvYourTick) =
      max ctx.lastRecvYourTick p.myTick := by
    split <;> omega
  -- the receive timing touches neither ticks nor counter
  have hrecord : ∀ c : RudpContext, TicksAfter ctx c p.myTick →
      TicksAfter ctx (rudpRecordReceive c) p.myTick := by
    intro c hc
    unfold rudpRecordReceive
    split
    · exact ⟨hc.myCookie, hc.lastRecvYourTick, hc.lastPeerTickSeen, hc.peerTickGapEvents⟩
    · exact hc
  unfold rudpAccept
  apply hrecord
  unfold rudpDetectGap
  by_cases hgap : IsGap ctx.lastPeerTickSeen p.myTick
  · rw [if_pos (by exact hgap)]
    exact ⟨rfl, hmax, rfl, by rw [if_pos hgap]; rfl⟩
  · rw [if_neg (by exact hgap)]
    exact ⟨rfl, hmax, rfl, by rw [if_neg hgap]; rfl⟩

/-- The payload stage leaves ticks and counter alone. -/
theorem rudpQueueData_ticks {c : RudpContext} (z : Zlib) (p : InnerPacket)
    (h : TicksAfter ctx c t) : TicksAfter ctx (rudpQueueData z c p).2 t := by
  have hblock : ∀ data, TicksAfter ctx (rudpQueueBlock c data) t := by
    intro data
    unfold rudpQueueBlock
    split
    · split
      · exact ⟨h.myCookie, h.lastRecvYourTick, h.lastPeerTickSeen, h.peerTickGapEvents⟩
      · exact ⟨h.myCookie, h.lastRecvYourTick, h.lastPeerTickSeen, h.peerTickGapEvents⟩
    · exact h
  unfold rudpQueueData
  split
  · split
    · split
      · exact h
      · exact hblock _
    · exact hblock _
  · exact h

/-- **One accepted packet.** -/
theorem receiveStep_ticks (h : (receive z ctx a).1 = true) :
    TicksAfter ctx (receiveStep z ctx a) (tickOf ctx.myCookie a) := by
  obtain ⟨p, hp⟩ := (receive_accepted_iff z ctx a).mp h
  have haccept := rudpAccept_ticks { ctx with now := a.now } a.source p
  have hqueue := rudpQueueData_ticks z p haccept
  have hstep : receiveStep z ctx a =
      (rudpQueueData z (rudpAccept { ctx with now := a.now } a.source p) p).2 := by
    have hwin : rudpInWindow { ctx with now := a.now } p.myTick = true := hp.window
    unfold receiveStep receive rudpProcessInner
    simp only [hp.parse, hwin, Bool.not_true, Bool.false_eq_true, if_false]
  rw [hstep, hp.tickOf]
  exact ⟨hqueue.myCookie, hqueue.lastRecvYourTick, hqueue.lastPeerTickSeen,
    hqueue.peerTickGapEvents⟩

/-! ### Accepted sequences -/

theorem receive_ticks_run {as : List Arrival} (h : Accepted z ctx as) :
    (run (receiveStep z) ctx as).myCookie = ctx.myCookie ∧
      (run (receiveStep z) ctx as).lastRecvYourTick =
        highest ctx.lastRecvYourTick (as.map (tickOf ctx.myCookie)) := by
  induction as generalizing ctx with
  | nil => exact ⟨rfl, rfl⟩
  | cons a as ih =>
    have hstep := receiveStep_ticks h.1
    obtain ⟨hcookie, hhigh⟩ := ih h.2
    rw [run_cons]
    refine ⟨hcookie.trans hstep.myCookie, ?_⟩
    rw [hhigh, hstep.myCookie, hstep.lastRecvYourTick, List.map_cons]
    rfl

/-- **The gaps of accepted packets** are the jumps of their ticks. -/
theorem receive_gaps {as : List Arrival} (h : Accepted z ctx as) :
    gapEvents z ctx as = ctx.peerTickGapEvents +
      jumps IsGap ctx.lastPeerTickSeen (as.map (tickOf ctx.myCookie)) := by
  induction as generalizing ctx with
  | nil => rfl
  | cons a as ih =>
    have hstep := receiveStep_ticks h.1
    have hrest := ih h.2
    rw [hstep.myCookie, hstep.lastPeerTickSeen, hstep.peerTickGapEvents, Nat.add_assoc] at hrest
    exact hrest

/-! ### Copies -/

/-- A tick that has been accepted can come again. -/
theorem inWindow_max (h : inWindow high t = true) : inWindow (max high t) t = true := by
  simp only [inWindow, Bool.not_eq_true', Bool.and_eq_false_iff, decide_eq_false_iff_not] at h ⊢
  omega

theorem highest_append (high : ℕ) (ticks : List ℕ) (t : ℕ) :
    highest high (ticks ++ [t]) = max (highest high ticks) t := by
  rw [highest, List.foldl_append]
  rfl

theorem le_highest (high : ℕ) (ticks : List ℕ) : high ≤ highest high ticks := by
  induction ticks generalizing high with
  | nil => exact Nat.le_refl high
  | cons u ticks ih => exact Nat.le_trans (Nat.le_max_left high u) (ih (max high u))

theorem highest_le {ticks : List ℕ} (h : t ∈ ticks) : t ≤ highest high ticks := by
  induction ticks generalizing high with
  | nil => cases h
  | cons u ticks ih =>
    rcases List.mem_cons.mp h with rfl | hmem
    · exact Nat.le_trans (Nat.le_max_right high t) (le_highest (max high t) ticks)
    · exact ih hmem

theorem tickOf_congr {myCookie : ℕ} {s : Arrival} (hbuf : s.buf = a.buf)
    (hverify : s.verifyPadding = a.verifyPadding) : tickOf myCookie s = tickOf myCookie a := by
  rw [tickOf, tickOf, hbuf, hverify]

/-- Two contexts that agree on what decides about acceptance. -/
structure SameWindow (c c' : RudpContext) : Prop where
  myCookie : c'.myCookie = c.myCookie
  lastRecvYourTick : c'.lastRecvYourTick = c.lastRecvYourTick

/-- **Copies are accepted.** Every packet of the longer sequence is accepted too, in whatever
    context has the same cookie and has seen the same highest tick. -/
theorem copies_accepted {xs ys : List Arrival} (h : Detour (LateCopy ctx) before xs ys)
    {c c' : RudpContext} (hcookie : c.myCookie = ctx.myCookie) (hhigh : c.lastRecvYourTick =
      highest ctx.lastRecvYourTick (before.map (tickOf ctx.myCookie)))
    (hbefore : ∀ a ∈ before, ∃ high p, Admits z ctx.myCookie high a p) (hxs : Accepted z c xs)
    (hsame : SameWindow c c') : Accepted z c' ys := by
  -- over the detour: the next packet of the run, or a copy in between
  induction h generalizing c c' with
  | nil _ => trivial
  | @keep before xs ys x _ ih =>
    have hx : (receive z c x).1 = true := hxs.1
    have hadmits := (receive_accepted_iff z c x).mp hx
    have hx' : (receive z c' x).1 = true := by
      rw [receive_accepted_iff, hsame.myCookie, hsame.lastRecvYourTick]
      exact hadmits
    have hstep := receiveStep_ticks hx
    have hstep' := receiveStep_ticks hx'
    refine ⟨hx', ih (hstep.myCookie.trans hcookie) ?_ ?_ hxs.2 ⟨?_, ?_⟩⟩
    · rw [hstep.lastRecvYourTick, hhigh, hcookie, List.map_append, List.map_singleton,
        highest_append]
    · intro a ha
      rcases List.mem_append.mp ha with hmem | hmem
      · exact hbefore a hmem
      · rw [List.mem_singleton.mp hmem]
        obtain ⟨p, hp⟩ := hadmits
        rw [hcookie] at hp
        exact ⟨_, p, hp⟩
    · rw [hstep'.myCookie, hstep.myCookie, hsame.myCookie]
    · rw [hstep'.lastRecvYourTick, hstep.lastRecvYourTick, hsame.lastRecvYourTick, hsame.myCookie]
  | @visit before xs ys s hs _ ih =>
    obtain ⟨⟨a, ha, hbuf, hverify⟩, hwin⟩ := hs
    obtain ⟨high, p, hp⟩ := hbefore a ha
    have htick : tickOf ctx.myCookie s = p.myTick := by
      rw [tickOf_congr hbuf hverify, hp.tickOf]
    have hs' : (receive z c' s).1 = true := by
      rw [receive_accepted_iff, hsame.myCookie, hsame.lastRecvYourTick, hcookie, hhigh]
      refine ⟨p, ?_, ?_, hp.decodes⟩
      · rw [hverify, hbuf]
        exact hp.parse
      · rw [← htick]
        exact hwin
    have hstep' := receiveStep_ticks hs'
    refine ⟨hs', ih hcookie hhigh hbefore hxs ⟨?_, ?_⟩⟩
    · rw [hstep'.myCookie, hsame.myCookie]
    · -- the copy does not raise the highest tick
      have hmem : tickOf ctx.myCookie s ∈ before.map (tickOf ctx.myCookie) := by
        rw [tickOf_congr hbuf hverify]
        exact List.mem_map_of_mem ha
      rw [hstep'.lastRecvYourTick, hsame.lastRecvYourTick, hsame.myCookie, hcookie, hhigh]
      exact max_eq_left (highest_le hmem)

/-- Accepted ticks are repeatable as they come. -/
theorem accepted_reachable {xs : List Arrival} (h : Accepted z ctx xs) :
    Reachable (Repeatable ctx.lastRecvYourTick) [] (xs.map (tickOf ctx.myCookie)) := by
  intro pre t post hxs
  obtain ⟨before, after, rfl, rfl, hafter⟩ := List.map_eq_append_iff.mp hxs
  obtain ⟨x, after, rfl, rfl, rfl⟩ := List.map_eq_cons_iff.mp hafter
  have hbefore : Accepted z ctx before := h.of_initial (List.prefix_append _ _)
  obtain ⟨hcookie, hhigh⟩ := receive_ticks_run hbefore
  obtain ⟨p, hp⟩ := (receive_accepted_iff z _ x).mp h.at
  rw [hcookie, hhigh] at hp
  rw [List.nil_append, hp.tickOf]
  refine ⟨List.mem_append_right _ (List.mem_singleton.mpr rfl), ?_⟩
  rw [highest_append]
  exact inWindow_max hp.window

/-! ### When copies add no gap -/

/-- Late copies and repeatable ticks. -/
theorem lateCopy_repeatable {s : Arrival} (h : LateCopy ctx before s) :
    Repeatable ctx.lastRecvYourTick (before.map (tickOf ctx.myCookie)) (tickOf ctx.myCookie s) := by
  obtain ⟨⟨a, ha, hbuf, hverify⟩, hwin⟩ := h
  refine ⟨?_, hwin⟩
  rw [tickOf_congr hbuf hverify]
  exact List.mem_map_of_mem ha

theorem repeatable_lateCopy
    (h : Repeatable ctx.lastRecvYourTick (before.map (tickOf ctx.myCookie)) t) :
    ∃ s, tickOf ctx.myCookie s = t ∧ LateCopy ctx before s := by
  obtain ⟨hmem, hwin⟩ := h
  obtain ⟨a, ha, rfl⟩ := List.mem_map.mp hmem
  exact ⟨a, rfl, ⟨a, ha, rfl, rfl⟩, hwin⟩

/-- **Loss detection and late copies.** For every context and every sequence of accepted
    packets: no insertion of late copies increases the number of gap events if and only if
    the ticks that can still come again are close together at every point. -/
theorem gap_events_stable_iff (z : Zlib) (ctx : RudpContext) (xs : List Arrival)
    (haccepted : Accepted z ctx xs) :
    (∀ ys, Copies ctx xs ys → gapEvents z ctx ys ≤ gapEvents z ctx xs) ↔
      TicksClose ctx (xs.map (tickOf ctx.myCookie)) := by
  have hys : ∀ ys, Copies ctx xs ys → Accepted z ctx ys := fun ys h =>
    copies_accepted h rfl rfl (fun a ha => absurd ha List.not_mem_nil) haccepted ⟨rfl, rfl⟩
  have hnone : ∀ t, ¬ Repeatable ctx.lastRecvYourTick [] t := fun t h =>
    absurd h.1 List.not_mem_nil
  rw [TicksClose, ← detour_jumps_le_iff hnone ctx.lastPeerTickSeen (accepted_reachable haccepted)]
  constructor
  · intro h ts hts
    obtain ⟨ys, rfl, hcopies⟩ : ∃ ys, ys.map (tickOf ctx.myCookie) = ts ∧ Copies ctx xs ys :=
      Detour.lift (fun before t => repeatable_lateCopy) hts
    have hle := h ys hcopies
    rw [receive_gaps (hys ys hcopies), receive_gaps haccepted] at hle
    exact Nat.le_of_add_le_add_left hle
  · intro h ys hcopies
    rw [receive_gaps (hys ys hcopies), receive_gaps haccepted]
    exact Nat.add_le_add_left
      (h _ (hcopies.map (fun before s => lateCopy_repeatable))) _

/-- A packet of the V2 format without payload for `sampleContext`, with a tick. -/
def keepaliveAt (tick : ℕ) : Arrival where
  now := 1000
  buf := beBytes 4 5 ++ beBytes 8 tick ++ beBytes 8 0 ++ beBytes 2 0 ++ [0]
  source := ⟨false, 9, 9⟩
  verifyPadding := false

/-- Two packets a second apart, with a late copy of the first. -/
theorem gap_events_stable_sample :
    (∀ ys, Copies sampleContext [keepaliveAt 20000, keepaliveAt 21000] ys →
        gapEvents headerZlib sampleContext ys ≤
          gapEvents headerZlib sampleContext [keepaliveAt 20000, keepaliveAt 21000]) ↔
      TicksClose sampleContext
        ([keepaliveAt 20000, keepaliveAt 21000].map (tickOf sampleContext.myCookie)) :=
  gap_events_stable_iff headerZlib sampleContext [keepaliveAt 20000, keepaliveAt 21000]
    ⟨by decide, by decide, trivial⟩

/-- Three packets that are 6 s apart count no gap; when a copy of the first comes late, before
    the third, the third counts as a gap of 12 s. -/
theorem late_copy_adds_gap :
    ¬ ∀ (z : Zlib) (ctx : RudpContext) (xs : List Arrival), Accepted z ctx xs →
      ∀ ys, Copies ctx xs ys → gapEvents z ctx ys ≤ gapEvents z ctx xs := by
  intro h
  have hcopy : LateCopy sampleContext [keepaliveAt 20000, keepaliveAt 26000]
      (keepaliveAt 20000) :=
    ⟨⟨keepaliveAt 20000, List.mem_cons_self, rfl, rfl⟩, by decide⟩
  have hle := h headerZlib sampleContext
    [keepaliveAt 20000, keepaliveAt 26000, keepaliveAt 32000]
    ⟨by decide, by decide, by decide, trivial⟩
    [keepaliveAt 20000, keepaliveAt 26000, keepaliveAt 20000, keepaliveAt 32000]
    (.keep _ (.keep _ (.visit hcopy (.keep _ (.nil _)))))
  exact absurd hle (by decide)

end SoftEther.Accel
