import SoftEther.Packet.Dequeue

namespace SoftEther.Packet

/-!
# Receiving in batches

`softether_receive_batch` does for many frames in one call what `softether_receive` does for one.
Both are called again and again; here on a queue that is not filled in between.

* `after`, `payloads`, `answered` — the queue after some calls, the IP packets the calls have
  handed out, and the ARP requests they have answered;
* `BatchRefines` — batches hand out and answer what single calls do, and every batch takes at
  least one frame off a queue that is not empty;
* `batchLoop_removed` — a batch takes off an initial part of the queue;
* `batch_refines_iff` — this is so exactly when every IP packet fits the buffer alone.  A single
  call drops a packet that does not; a batch leaves it at the head of the queue for ever.
-/

/-! ### Calls in a row -/

/-- A fill that finds nothing on the links. -/
def idleFill : FillOutcome where
  rc := 0
  frames := []
  readBytes := false
  read_of_frames := fun h => absurd rfl h

/-- The queue after `n` calls. -/
def after (call : List QueuedFrame → Delivery) : ℕ → List QueuedFrame → List QueuedFrame
  | 0, queue => queue
  | n + 1, queue => after call n (call queue).queue

/-- What the caller gets of a frame: the bytes behind the Ethernet header. -/
def ipPacket (e : QueuedFrame) : List UInt8 := e.data.drop ethHeaderSize

/-- The IP packets of `n` calls. -/
def payloads (call : List QueuedFrame → Delivery) : ℕ → List QueuedFrame → List (List UInt8)
  | 0, _ => []
  | n + 1, queue => (call queue).delivered.map ipPacket ++ payloads call n (call queue).queue

/-- The ARP requests that a call answers: those among the frames it takes off the queue. -/
def answeredBy (queue : List QueuedFrame) (d : Delivery) : List QueuedFrame :=
  (queue.take (queue.length - d.queue.length)).filter (frameKind · = .arp)

/-- The ARP requests that `n` calls answer. -/
def answered (call : List QueuedFrame → Delivery) : ℕ → List QueuedFrame → List QueuedFrame
  | 0, _ => []
  | n + 1, queue => answeredBy queue (call queue) ++ answered call n (call queue).queue

/-- `softether_receive` on an established connection. -/
def single (maxLen : ℕ) (queue : List QueuedFrame) : Delivery :=
  softetherReceive true maxLen queue idleFill

/-- `softether_receive_batch` on an established connection. -/
def batch (maxLen maxPackets : ℕ) (queue : List QueuedFrame) : Delivery :=
  softetherReceiveBatch true maxLen maxPackets queue idleFill

/-- **Batches refine single calls**, on one content of the queue. -/
structure BatchRefines (maxLen maxPackets : ℕ) (queue : List QueuedFrame) : Prop where
  payloads : ∀ n, queue.length ≤ n →
    payloads (batch maxLen maxPackets) n queue = payloads (single maxLen) n queue
  answered : ∀ n, queue.length ≤ n →
    answered (batch maxLen maxPackets) n queue = answered (single maxLen) n queue
  progress : ∀ n, after (batch maxLen maxPackets) n queue ≠ [] →
    (batch maxLen maxPackets (after (batch maxLen maxPackets) n queue)).queue.length <
      (after (batch maxLen maxPackets) n queue).length

/-- An IP frame whose packet does not fit the buffer. -/
def TooLong (maxLen : ℕ) (e : QueuedFrame) : Prop :=
  frameKind e = .ip ∧ maxLen < e.len - ethHeaderSize

instance decidableTooLong (maxLen : ℕ) : DecidablePred (TooLong maxLen) := fun e =>
  inferInstanceAs (Decidable (frameKind e = .ip ∧ maxLen < e.len - ethHeaderSize))

/-! ### What calls take off the queue -/

/-- A call takes `removed` off the queue, hands out the IP frames among them that `keep` keeps,
    and leaves `rest`. -/
structure Takes (keep : QueuedFrame → Bool) (queue : List QueuedFrame) (d : Delivery)
    (removed : List QueuedFrame) : Prop where
  split : queue = removed ++ d.queue
  delivered : d.delivered = removed.filter fun e => frameKind e = .ip ∧ keep e

variable {queue : List QueuedFrame} {call : List QueuedFrame → Delivery} {maxLen maxPackets : ℕ}

theorem Takes.answered {keep : QueuedFrame → Bool} {removed : List QueuedFrame} {d : Delivery}
    (h : Takes keep queue d removed) :
    answeredBy queue d = removed.filter (frameKind · = .arp) := by
  have hlen : queue.length - d.queue.length = removed.length := by
    rw [h.split, List.length_append]
    omega
  rw [answeredBy, hlen]
  nth_rewrite 1 [h.split]
  rw [List.take_left]

/-- **Enough calls.** When every call takes at least one frame off a queue that is not empty,
    `queue.length` calls hand out all IP frames that are kept, and answer all ARP requests. -/
theorem calls_take_all {keep : QueuedFrame → Bool} {P : List QueuedFrame → Prop}
    (htail : ∀ removed rest, P (removed ++ rest) → P rest)
    (hcall : ∀ queue, P queue → ∃ removed, Takes keep queue (call queue) removed ∧
      (queue ≠ [] → removed ≠ [])) {n : ℕ} (hP : P queue) (hn : queue.length ≤ n) :
    payloads call n queue =
        (queue.filter fun e => frameKind e = .ip ∧ keep e).map ipPacket ∧
      answered call n queue = queue.filter (frameKind · = .arp) := by
  induction n generalizing queue with
  | zero =>
    obtain rfl : queue = [] := List.eq_nil_of_length_eq_zero (by omega)
    exact ⟨rfl, rfl⟩
  | succ n ih =>
    obtain ⟨removed, htakes, hpos⟩ := hcall queue hP
    have hsplit := htakes.split
    have hlen : (call queue).queue.length ≤ n := by
      have hsum := congrArg List.length hsplit
      rw [List.length_append] at hsum
      rcases eq_or_ne queue [] with rfl | hne
      · rw [List.length_nil] at hsum
        omega
      · have := List.length_pos_iff.mpr (hpos hne)
        omega
    obtain ⟨hpay, hans⟩ := ih (htail removed _ (hsplit ▸ hP)) hlen
    rw [payloads, answered, hpay, hans, htakes.answered, htakes.delivered]
    constructor
    · rw [← List.map_append, ← List.filter_append, ← hsplit]
    · rw [← List.filter_append, ← hsplit]

/-- **A single call** takes one frame. -/
theorem single_takes (hlen : 0 < maxLen) (queue : List QueuedFrame) :
    ∃ removed, Takes (fun e => ¬ TooLong maxLen e) queue (single maxLen queue) removed ∧
      (queue ≠ [] → removed ≠ []) := by
  cases queue with
  | nil =>
    refine ⟨[], ⟨?_, ?_⟩, fun h => absurd rfl h⟩ <;>
      simp [single, softetherReceive, Nat.ne_of_gt hlen, refill, idleFill]
  | cons e queue =>
    refine ⟨[e], ?_, fun _ => List.cons_ne_nil _ _⟩
    have hzero : maxLen ≠ 0 := Nat.ne_of_gt hlen
    simp only [single, softetherReceive, if_neg hzero, Bool.not_true, Bool.false_eq_true, if_false,
      reduceCtorEq, false_and, refill]
    by_cases hip : frameKind e = .ip
    · by_cases hfits : e.len - ethHeaderSize > maxLen
      · rw [if_neg (by simpa using hip), if_pos hfits]
        have hlong : TooLong maxLen e := ⟨hip, hfits⟩
        exact ⟨rfl, by simp [hip, hlong]⟩
      · rw [if_neg (by simpa using hip), if_neg hfits]
        have hshort : ¬ TooLong maxLen e := fun h => hfits h.2
        exact ⟨rfl, by simp [hip, hshort]⟩
    · rw [if_pos hip]
      exact ⟨rfl, by simp [hip]⟩

/-! ### What a batch takes off the queue -/

/-- **The batch loop.** It takes off an initial part of the queue, in which every IP packet
    fits, and hands out the IP frames of it behind those taken before. -/
theorem batchLoop_removed (maxLen maxPackets total : ℕ) (taken queue : List QueuedFrame) :
    ∃ removed, queue = removed ++ (batchLoop maxLen maxPackets total taken queue).queue ∧
      (batchLoop maxLen maxPackets total taken queue).delivered =
        taken ++ removed.filter (frameKind · = .ip) ∧ ∀ e ∈ removed, ¬ TooLong maxLen e := by
  induction queue generalizing total taken with
  | nil => exact ⟨[], rfl, (List.append_nil _).symm, fun e he => absurd he List.not_mem_nil⟩
  | cons e queue ih =>
    have hstop : ∃ removed, e :: queue = removed ++ (e :: queue) ∧
        taken = taken ++ removed.filter (frameKind · = .ip) ∧ ∀ e ∈ removed, ¬ TooLong maxLen e :=
      ⟨[], rfl, (List.append_nil _).symm, fun e he => absurd he List.not_mem_nil⟩
    rw [batchLoop]
    by_cases hcount : taken.length < maxPackets
    · rw [if_pos hcount]
      by_cases hip : frameKind e = .ip
      · rw [if_neg (by simpa using hip)]
        by_cases hroom : total + (e.len - ethHeaderSize) > maxLen
        · rw [if_pos hroom]
          exact hstop
        · rw [if_neg hroom]
          obtain ⟨removed, hsplit, hdelivered, hfits⟩ :=
            ih (total + (e.len - ethHeaderSize)) (taken ++ [e])
          refine ⟨e :: removed, ?_, ?_, ?_⟩
          · rw [List.cons_append, ← hsplit]
          · rw [hdelivered, List.filter_cons, if_pos (by simpa using hip), List.append_assoc]
            rfl
          · intro x hx
            rcases List.mem_cons.mp hx with rfl | hmem
            · rintro ⟨-, hlong⟩
              omega
            · exact hfits x hmem
      · rw [if_pos hip]
        obtain ⟨removed, hsplit, hdelivered, hfits⟩ := ih total taken
        refine ⟨e :: removed, ?_, ?_, ?_⟩
        · rw [List.cons_append, ← hsplit]
        · rw [hdelivered, List.filter_cons, if_neg (by simpa using hip)]
        · intro x hx
          rcases List.mem_cons.mp hx with rfl | hmem
          · exact fun hlong => hip hlong.1
          · exact hfits x hmem
    · rw [if_neg hcount]
      exact hstop

/-- A batch with room for a packet takes the first frame, unless its packet is too long. -/
theorem batchLoop_head (hpackets : 0 < maxPackets) {e : QueuedFrame} (hfits : ¬ TooLong maxLen e)
    (queue : List QueuedFrame) :
    (batchLoop maxLen maxPackets 0 [] (e :: queue)).queue.length ≤ queue.length := by
  have hle : ∀ total taken,
      (batchLoop maxLen maxPackets total taken queue).queue.length ≤ queue.length := by
    intro total taken
    obtain ⟨removed, hsplit, -, -⟩ := batchLoop_removed maxLen maxPackets total taken queue
    have hlen := congrArg List.length hsplit
    rw [List.length_append] at hlen
    omega
  rw [batchLoop, if_pos (show ([] : List QueuedFrame).length < maxPackets from hpackets)]
  by_cases hip : frameKind e = .ip
  · have hroom : ¬ 0 + (e.len - ethHeaderSize) > maxLen := by
      rw [Nat.zero_add]
      exact fun hlong => hfits ⟨hip, hlong⟩
    rw [if_neg (by simpa using hip), if_neg hroom]
    exact hle _ _
  · rw [if_pos hip]
    exact hle _ _

theorem batch_eq (hlen : 0 < maxLen) (hpackets : 0 < maxPackets) (queue : List QueuedFrame) :
    batch maxLen maxPackets queue = batchLoop maxLen maxPackets 0 [] queue := by
  have hargs : ¬ (maxLen = 0 ∨ maxPackets = 0) := by omega
  have hrefill : refill queue idleFill = queue := by
    unfold refill idleFill
    split
    · rename_i hnil
      exact hnil.symm
    · rfl
  have hrc : ¬ (queue = [] ∧ idleFill.rc < 0) := fun h => absurd h.2 (by decide)
  simp only [batch, softetherReceiveBatch, if_neg hargs, Bool.not_true, Bool.false_eq_true,
    if_false, if_neg hrc, hrefill]

/-- **A batch** without a packet that is too long. -/
theorem batch_takes (hlen : 0 < maxLen) (hpackets : 0 < maxPackets)
    (hfits : ∀ e ∈ queue, ¬ TooLong maxLen e) :
    ∃ removed, Takes (fun e => ¬ TooLong maxLen e) queue (batch maxLen maxPackets queue) removed ∧
      (queue ≠ [] → removed ≠ []) := by
  rw [batch_eq hlen hpackets]
  obtain ⟨removed, hsplit, hdelivered, hkept⟩ := batchLoop_removed maxLen maxPackets 0 [] queue
  refine ⟨removed, ⟨hsplit, ?_⟩, ?_⟩
  · rw [hdelivered, List.nil_append]
    apply List.filter_congr
    intro e he
    simp [hkept e he]
  · rintro hne rfl
    cases queue with
    | nil => exact hne rfl
    | cons e queue =>
      have hhead := batchLoop_head hpackets (hfits e List.mem_cons_self) queue
      have hlen := congrArg List.length hsplit
      rw [List.nil_append, List.length_cons] at hlen
      omega

/-! ### When batches refine single calls -/

/-- A frame whose packet is too long stays in the queue. -/
theorem batch_keeps_tooLong {e : QueuedFrame} (hlong : TooLong maxLen e) (he : e ∈ queue) (n : ℕ) :
    e ∈ after (batch maxLen maxPackets) n queue := by
  induction n generalizing queue with
  | zero => exact he
  | succ n ih =>
    apply ih
    by_cases hargs : maxLen = 0 ∨ maxPackets = 0
    · simpa only [batch, softetherReceiveBatch, if_pos hargs] using he
    · rw [batch_eq (by omega) (by omega)]
      obtain ⟨removed, hsplit, -, hkept⟩ := batchLoop_removed maxLen maxPackets 0 [] queue
      rw [hsplit] at he
      rcases List.mem_append.mp he with hmem | hmem
      · exact absurd hlong (hkept e hmem)
      · exact hmem

/-- Calls that always make progress empty the queue. -/
theorem progress_ends (hprogress : ∀ n, after call n queue ≠ [] →
      (call (after call n queue)).queue.length < (after call n queue).length) :
    ∃ n, after call n queue = [] := by
  induction hlen : queue.length using Nat.strong_induction_on generalizing queue with
  | _ len ih =>
    by_cases hnil : queue = []
    · exact ⟨0, hnil⟩
    · have hless : (call queue).queue.length < queue.length := hprogress 0 hnil
      obtain ⟨n, hn⟩ := ih _ (hlen ▸ hless) (fun m hm => hprogress (m + 1) hm) rfl
      exact ⟨n + 1, hn⟩

/-- Calls on an empty queue that is not filled. -/
theorem calls_nil (hqueue : (call []).queue = []) (hdelivered : (call []).delivered = []) (n : ℕ) :
    payloads call n [] = [] ∧ answered call n [] = [] ∧ after call n [] = [] := by
  induction n with
  | zero => exact ⟨rfl, rfl, rfl⟩
  | succ n ih =>
    obtain ⟨hpay, hans, hafter⟩ := ih
    rw [payloads, answered, after, hqueue, hdelivered, hpay, hans]
    exact ⟨rfl, by simp [answeredBy], hafter⟩

theorem batch_nil (maxLen maxPackets : ℕ) :
    (batch maxLen maxPackets []).queue = [] ∧ (batch maxLen maxPackets []).delivered = [] := by
  unfold batch softetherReceiveBatch
  split
  · exact ⟨rfl, rfl⟩
  · exact ⟨rfl, rfl⟩

theorem single_nil (maxLen : ℕ) :
    (single maxLen []).queue = [] ∧ (single maxLen []).delivered = [] := by
  unfold single softetherReceive
  split
  · exact ⟨rfl, rfl⟩
  · exact ⟨rfl, rfl⟩

/-- **Batch and single receive.** For every content of the queue and all buffer limits: batches
    hand out and answer what single calls do, with progress in every call on a queue that is not
    empty, if and only if the queue is empty, or the limits are positive and every IP packet in
    it fits the buffer. -/
theorem batch_refines_iff (maxLen maxPackets : ℕ) (queue : List QueuedFrame) :
    BatchRefines maxLen maxPackets queue ↔
      queue = [] ∨ (0 < maxLen ∧ 0 < maxPackets ∧ ∀ e ∈ queue, ¬ TooLong maxLen e) := by
  constructor
  · intro h
    by_cases hnil : queue = []
    · exact .inl hnil
    have hless := h.progress 0 hnil
    have hargs : ¬ (maxLen = 0 ∨ maxPackets = 0) := by
      intro hargs
      simp [after, batch, softetherReceiveBatch, hargs] at hless
    refine .inr ⟨by omega, by omega, ?_⟩
    intro e he hlong
    -- a packet that is too long stays in the queue, which would run empty
    obtain ⟨n, hn⟩ := progress_ends h.progress
    have hmem : e ∈ after (batch maxLen maxPackets) n queue := batch_keeps_tooLong hlong he n
    rw [hn] at hmem
    exact absurd hmem List.not_mem_nil
  · rintro (rfl | ⟨hlen, hpackets, hfits⟩)
    · have hbatch := calls_nil (batch_nil maxLen maxPackets).1 (batch_nil maxLen maxPackets).2
      have hsingle := calls_nil (single_nil maxLen).1 (single_nil maxLen).2
      refine ⟨fun n _ => ?_, fun n _ => ?_, fun n hne => absurd (hbatch n).2.2 hne⟩
      · rw [(hbatch n).1, (hsingle n).1]
      · rw [(hbatch n).2.1, (hsingle n).2.1]
    · -- both kinds of calls hand out every packet and answer every request
      have htail : ∀ removed rest : List QueuedFrame,
          (∀ e ∈ removed ++ rest, ¬ TooLong maxLen e) → ∀ e ∈ rest, ¬ TooLong maxLen e :=
        fun removed rest h e he => h e (List.mem_append_right removed he)
      have hbatch := fun (n : ℕ) (hn : queue.length ≤ n) =>
        calls_take_all htail (fun q hq => batch_takes hlen hpackets hq) hfits hn
      have hsingle := fun (n : ℕ) (hn : queue.length ≤ n) =>
        calls_take_all (P := fun _ => True) (fun _ _ _ => trivial) (fun q _ => single_takes hlen q)
          trivial hn
      refine ⟨fun n hn => ?_, fun n hn => ?_, fun n hne => ?_⟩
      · rw [(hbatch n hn).1, (hsingle n hn).1]
      · rw [(hbatch n hn).2, (hsingle n hn).2]
      · have hafter : ∀ e ∈ after (batch maxLen maxPackets) n queue, ¬ TooLong maxLen e := by
          clear hbatch hsingle hne
          induction n generalizing queue with
          | zero => exact hfits
          | succ n ih =>
            obtain ⟨removed, htakes, -⟩ := batch_takes hlen hpackets hfits
            have hsplit := htakes.split
            exact ih _ (htail removed _ (hsplit ▸ hfits))
        obtain ⟨removed, htakes, hpos⟩ := batch_takes hlen hpackets hafter
        have hsum := congrArg List.length htakes.split
        rw [List.length_append] at hsum
        have := List.length_pos_iff.mpr (hpos hne)
        omega

/-- An IPv4 frame with a packet of `n` zero bytes. -/
def ipv4Frame (n : ℕ) : QueuedFrame where
  data := List.replicate 12 0 ++ [0x08, 0x00] ++ List.replicate n 0
  session := 0

/-- A packet of 4 bytes does not fit a buffer of 2: single calls drop it and go on, batches do
    not get past it. -/
theorem batch_stalls :
    ¬ ∀ (maxLen maxPackets : ℕ), 0 < maxLen → 0 < maxPackets → ∀ queue : List QueuedFrame,
      BatchRefines maxLen maxPackets queue := by
  intro h
  have hrefines := h 2 8 (by decide) (by decide) [ipv4Frame 4, ipv4Frame 1]
  exact absurd (hrefines.payloads 2 (by decide)) (by decide)

end SoftEther.Packet
