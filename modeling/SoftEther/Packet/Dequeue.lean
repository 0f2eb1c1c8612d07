import SoftEther.Packet.Receive

namespace SoftEther.Packet

/-!
# Taking frames from the receive queue

`softether_receive`, `softether_receive_raw` and `softether_receive_batch` take frames from the
front of the queue, and fill it from the links when it is empty.  The queue is the list of its
frames, oldest first (`RecvQueue.contents`); what a fill brought is given with the call.

* `QueuedFrame` — a frame and the session it was received in;
* `FillOutcome` — the return value of a fill, the frames it queued, and whether it read any byte
  from the server;
* `FrameKind` — ARP, too short, not IP, or IP;
* `softetherReceive`, `softetherReceiveRaw`, `softetherReceiveBatch`.

ARP requests are answered on the way; the answer is not part of what is received.
-/

/-- `ETH_HEADER_SIZE`. -/
abbrev ethHeaderSize : ℕ := 14

/-- `queued_frame_t`.  The session is not stored by the code. -/
structure QueuedFrame where
  data : List UInt8
  session : ℕ
  deriving DecidableEq

abbrev QueuedFrame.len (e : QueuedFrame) : ℕ := e.data.length

/-- What `softether_fill_recv_queue` did. -/
structure FillOutcome where
  rc : ℤ
  frames : List QueuedFrame
  readBytes : Bool
  read_of_frames : frames ≠ [] → readBytes = true

/-- What a frame is to the filter of the queue. -/
inductive FrameKind
  | arp
  | short
  | notIp
  | ip
  deriving DecidableEq, Repr

/-- The tests of the receive functions, in their order. -/
def frameKind (e : QueuedFrame) : FrameKind :=
  let ethertype := (e.data.getD 12 0, e.data.getD 13 0)
  if e.len ≥ 42 ∧ ethertype = (0x08, 0x06) then .arp
  else if e.len ≤ ethHeaderSize then .short
  else if ethertype ≠ (0x08, 0x00) ∧ ethertype ≠ (0x86, 0xDD) then .notIp
  else .ip

/-- What a call leaves behind: its return value, the frames it handed to the caller and the
    queue. -/
structure Delivery where
  rc : ℤ
  delivered : List QueuedFrame
  queue : List QueuedFrame

/-- The queue after the fill at the head of a call: only an empty queue is filled. -/
def refill (queue : List QueuedFrame) (fill : FillOutcome) : List QueuedFrame :=
  if queue = [] then fill.frames else queue

/-- `softether_receive` on a connection in state `STATE_CONNECTED` or not. -/
def softetherReceive (connected : Bool) (maxLen : ℕ) (queue : List QueuedFrame)
    (fill : FillOutcome) : Delivery :=
  if maxLen = 0 then ⟨-1, [], queue⟩
  else if !connected then ⟨-1, [], queue⟩
  else if queue = [] ∧ fill.rc < 0 then ⟨-1, [], refill queue fill⟩
  else if queue = [] ∧ fill.rc = 0 then ⟨0, [], refill queue fill⟩
  else
    match refill queue fill with
    | [] => ⟨0, [], []⟩
    | e :: queue =>
      if frameKind e ≠ .ip then ⟨0, [], queue⟩
      else if e.len - ethHeaderSize > maxLen then ⟨-1, [], queue⟩
      else ⟨(e.len - ethHeaderSize : ℕ), [e], queue⟩

/-- `softether_receive_raw`. -/
def softetherReceiveRaw (connected : Bool) (maxLen : ℕ) (queue : List QueuedFrame)
    (fill : FillOutcome) : Delivery :=
  if !connected then ⟨-1, [], queue⟩
  else if queue = [] ∧ fill.rc < 0 then ⟨-1, [], refill queue fill⟩
  else if queue = [] ∧ fill.rc = 0 then ⟨0, [], refill queue fill⟩
  else
    match refill queue fill with
    | [] => ⟨0, [], []⟩
    | e :: queue => if e.len > maxLen then ⟨0, [], queue⟩ else ⟨e.len, [e], queue⟩

/-- The loop of `softether_receive_batch`: it stops at `maxPackets` frames, at the end of the
    queue, or at an IP frame for which the buffer has no room. -/
def batchLoop (maxLen maxPackets : ℕ) (total : ℕ) (taken : List QueuedFrame) :
    List QueuedFrame → Delivery
  | [] => ⟨total, taken, []⟩
  | e :: queue =>
    if taken.length < maxPackets then
      if frameKind e ≠ .ip then batchLoop maxLen maxPackets total taken queue
      else if total + (e.len - ethHeaderSize) > maxLen then ⟨total, taken, e :: queue⟩
      else batchLoop maxLen maxPackets (total + (e.len - ethHeaderSize)) (taken ++ [e]) queue
    else ⟨total, taken, e :: queue⟩

/-- `softether_receive_batch`. -/
def softetherReceiveBatch (connected : Bool) (maxLen maxPackets : ℕ) (queue : List QueuedFrame)
    (fill : FillOutcome) : Delivery :=
  if maxLen = 0 ∨ maxPackets = 0 then ⟨0, [], queue⟩
  else if !connected then ⟨-1, [], queue⟩
  else if queue = [] ∧ fill.rc < 0 then ⟨-1, [], refill queue fill⟩
  else batchLoop maxLen maxPackets 0 [] (refill queue fill)

/-! ### Where the frames come from -/

theorem mem_refill {queue : List QueuedFrame} {fill : FillOutcome} {e : QueuedFrame}
    (h : e ∈ refill queue fill) : e ∈ queue ∨ e ∈ fill.frames := by
  unfold refill at h
  split_ifs at h
  · exact .inr h
  · exact .inl h

/-- A call neither invents nor duplicates frames: what it hands out and what it leaves was
    queued before or came with the fill. -/
structure Delivery.From (d : Delivery) (queue : List QueuedFrame) (fill : FillOutcome) : Prop where
  delivered : ∀ e ∈ d.delivered, e ∈ queue ∨ e ∈ fill.frames
  kept : ∀ e ∈ d.queue, e ∈ queue ∨ e ∈ fill.frames

theorem Delivery.From.nothing (rc : ℤ) (queue : List QueuedFrame) (fill : FillOutcome) :
    Delivery.From ⟨rc, [], queue⟩ queue fill :=
  ⟨nofun, fun _ => Or.inl⟩

theorem Delivery.From.refilled (rc : ℤ) (queue : List QueuedFrame) (fill : FillOutcome) :
    Delivery.From ⟨rc, [], refill queue fill⟩ queue fill :=
  ⟨nofun, fun _ => mem_refill⟩

theorem softetherReceive_from (connected : Bool) (maxLen : ℕ) (queue : List QueuedFrame)
    (fill : FillOutcome) : (softetherReceive connected maxLen queue fill).From queue fill := by
  unfold softetherReceive
  split_ifs
  · exact .nothing _ _ _
  · exact .nothing _ _ _
  · exact .refilled _ _ _
  · exact .refilled _ _ _
  · cases hq : refill queue fill with
    | nil => exact ⟨nofun, nofun⟩
    | cons e rest =>
      have hmem : ∀ x ∈ e :: rest, x ∈ queue ∨ x ∈ fill.frames := fun x hx => mem_refill (hq ▸ hx)
      have hrest : ∀ x ∈ rest, x ∈ queue ∨ x ∈ fill.frames :=
        fun x hx => hmem x (List.mem_cons_of_mem _ hx)
      simp only
      split_ifs
      · exact ⟨nofun, hrest⟩
      · exact ⟨nofun, hrest⟩
      · refine ⟨?_, hrest⟩
        intro x hx
        rw [List.mem_singleton.mp hx]
        exact hmem e List.mem_cons_self

theorem softetherReceiveRaw_from (connected : Bool) (maxLen : ℕ) (queue : List QueuedFrame)
    (fill : FillOutcome) : (softetherReceiveRaw connected maxLen queue fill).From queue fill := by
  unfold softetherReceiveRaw
  split_ifs
  · exact .nothing _ _ _
  · exact .refilled _ _ _
  · exact .refilled _ _ _
  · cases hq : refill queue fill with
    | nil => exact ⟨nofun, nofun⟩
    | cons e rest =>
      have hmem : ∀ x ∈ e :: rest, x ∈ queue ∨ x ∈ fill.frames := fun x hx => mem_refill (hq ▸ hx)
      have hrest : ∀ x ∈ rest, x ∈ queue ∨ x ∈ fill.frames :=
        fun x hx => hmem x (List.mem_cons_of_mem _ hx)
      simp only
      split_ifs
      · exact ⟨nofun, hrest⟩
      · refine ⟨?_, hrest⟩
        intro x hx
        rw [List.mem_singleton.mp hx]
        exact hmem e List.mem_cons_self

/-- The batch loop hands out frames of the queue, behind those already taken. -/
theorem batchLoop_from (maxLen maxPackets total : ℕ) (taken queue : List QueuedFrame) :
    (∀ e ∈ (batchLoop maxLen maxPackets total taken queue).delivered, e ∈ taken ∨ e ∈ queue) ∧
      ∀ e ∈ (batchLoop maxLen maxPackets total taken queue).queue, e ∈ queue := by
  induction queue generalizing total taken with
  | nil => exact ⟨fun _ => Or.inl, nofun⟩
  | cons e queue ih =>
    unfold batchLoop
    split_ifs
    · obtain ⟨hdelivered, hkept⟩ := ih total taken
      exact ⟨fun x hx => (hdelivered x hx).imp_right (List.mem_cons_of_mem _),
        fun x hx => List.mem_cons_of_mem _ (hkept x hx)⟩
    · exact ⟨fun _ => Or.inl, fun _ => id⟩
    · obtain ⟨hdelivered, hkept⟩ := ih (total + (e.len - ethHeaderSize)) (taken ++ [e])
      refine ⟨?_, fun x hx => List.mem_cons_of_mem _ (hkept x hx)⟩
      intro x hx
      rcases hdelivered x hx with htaken | hqueue
      · rcases List.mem_append.mp htaken with hold | hnew
        · exact .inl hold
        · rw [List.mem_singleton.mp hnew]
          exact .inr List.mem_cons_self
      · exact .inr (List.mem_cons_of_mem _ hqueue)
    · exact ⟨fun _ => Or.inl, fun _ => id⟩

theorem softetherReceiveBatch_from (connected : Bool) (maxLen maxPackets : ℕ)
    (queue : List QueuedFrame) (fill : FillOutcome) :
    (softetherReceiveBatch connected maxLen maxPackets queue fill).From queue fill := by
  unfold softetherReceiveBatch
  split_ifs
  · exact .nothing _ _ _
  · exact .nothing _ _ _
  · exact .refilled _ _ _
  · obtain ⟨hdelivered, hkept⟩ := batchLoop_from maxLen maxPackets 0 [] (refill queue fill)
    exact ⟨fun e he => mem_refill ((hdelivered e he).resolve_left nofun),
      fun e he => mem_refill (hkept e he)⟩

end SoftEther.Packet
