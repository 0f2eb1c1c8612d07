import SoftEther.Dhcp.Frame
import SoftEther.Lib.Deadline
import SoftEther.Packet.Dequeue

namespace SoftEther.Dhcp

open Lib SoftEther.Links SoftEther.Packet

/-!
# Waiting for a DHCP response

`wait_dhcp_response` takes frames from the tunnel until one is a DHCP message for the client, and
counts its time in steps of 100 ms.  A frame that the parser rejects is not counted.

* `Pass` — what a turn of the loop meets: the sockets, the answer of `poll`, what a fill brings;
* `nextFrame` — the first half of a turn: no frame, a failure, or a frame;
* `waitPass`, `waitTurn`, `waitLoop` — a turn, with the check of the time, and the loop;
* `Reception` — all turns a call may meet, without an end;
* `Reception.turns` — ticks, skips and stops among them;
* `wait_bounded_iff` — the calls of a set return within a number of turns that depends on the
  timeout alone exactly when the frames they reject are bounded by the timeout.
-/

/-! ### One turn -/

/-- `poll_interval`, in milliseconds. -/
abbrev POLL_INTERVAL : ℤ := 100

/-- What a turn of the loop meets.  The descriptors are negative where there is none, `udpFd` also
    without R-UDP. -/
structure Pass where
  connected : Bool
  primaryFd : ℤ
  primaryDirection : ℕ
  additional : List TcpSock
  udpFd : ℤ
  pollResult : ℤ
  fill : FillOutcome

/-- The sockets that are polled: those that can receive. -/
def Pass.nfds (p : Pass) : ℕ :=
  (if p.primaryDirection = tcpDirectionBoth ∨ p.primaryDirection = tcpDirectionServerToClient then 1
    else 0) +
  (p.additional.filter fun s => s.active && s.sock.any Sock.canRecv).length +
  (if p.udpFd ≥ 0 then 1 else 0)

/-- What a turn receives: nothing in its time, a failure, or a frame. -/
inductive Received
  | idle
  | failed
  | frame (bytes : List UInt8)

/-- Poll, unless frames are queued, and take a frame; with what is left in the queue. -/
def nextFrame (queue : List QueuedFrame) (p : Pass) : Received × List QueuedFrame :=
  if queue = [] ∧ p.primaryFd ≥ 0 ∧ p.nfds = 0 then (.idle, queue)
  else if queue = [] ∧ p.primaryFd ≥ 0 ∧ p.pollResult < 0 then (.failed, queue)
  else if queue = [] ∧ p.primaryFd ≥ 0 ∧ p.pollResult = 0 then (.idle, queue)
  else
    let d := softetherReceiveRaw p.connected 2048 queue p.fill
    if d.rc < 0 then (.failed, d.queue)
    else
      match d.delivered with
      | [] => (.idle, d.queue)
      | e :: _ => if e.len = 0 then (.idle, d.queue) else (.frame e.data, d.queue)

/-- The state of a wait. -/
structure Wait where
  elapsed : ℤ
  queue : List QueuedFrame
  lease : Lease

/-- A wait goes on, or it has returned. -/
inductive Waited
  | again (w : Wait)
  | returned (rc : ℤ) (w : Wait)

/-- The body of the loop. -/
def waitPass (client : Client) (w : Wait) (p : Pass) : Waited :=
  match nextFrame w.queue p with
  | (.idle, queue) => .again { w with queue := queue, elapsed := w.elapsed + POLL_INTERVAL }
  | (.failed, queue) => .returned (-1) { w with queue := queue }
  | (.frame bytes, queue) =>
    let (msgType, lease) := parseDhcpResponse client bytes w.lease
    let w := { w with queue := queue, lease := lease }
    if msgType > 0 then .returned msgType w else .again w

/-- A timeout in milliseconds for which the `int` that counts the time does not overflow. -/
structure Timeout where
  ms : ℤ
  no_overflow : ms ≤ 2147483600

/-- `while (elapsed < timeout_ms)`. -/
def waitTurn (client : Client) (timeout : Timeout) (w : Wait) (p : Pass) : Waited :=
  if w.elapsed < timeout.ms then waitPass client w p else .returned 0 w

/-! ### The loop -/

/-- A call of `wait_dhcp_response` and the turns it may meet. -/
structure Reception where
  client : Client
  queue : List QueuedFrame
  lease : Lease
  passes : ℕ → Pass

/-- A call after `n` turns. -/
def waitLoop (timeout : Timeout) (c : Reception) : ℕ → Waited
  | 0 => .again ⟨0, c.queue, c.lease⟩
  | n + 1 =>
    match waitLoop timeout c n with
    | .again w => waitTurn c.client timeout w (c.passes n)
    | .returned rc w => .returned rc w

/-- **A bound on the turns.** The calls of a set return within a number of turns that the timeout
    determines. -/
def WaitBounded (calls : Set Reception) : Prop :=
  ∃ bound : Timeout → ℕ, ∀ timeout, ∀ c ∈ calls,
    ∃ rc w, waitLoop timeout c (bound timeout) = .returned rc w

namespace Reception

/-- The queue before the turn `n`, when the wait is still on. -/
def queueAt (c : Reception) : ℕ → List QueuedFrame
  | 0 => c.queue
  | n + 1 => (nextFrame (c.queueAt n) (c.passes n)).2

/-- What the turn `n` receives. -/
def received (c : Reception) (n : ℕ) : Received := (nextFrame (c.queueAt n) (c.passes n)).1

/-- A turn that receives nothing is a tick; a failure and a frame with a DHCP message for the
    client stop the wait; any other frame is skipped. -/
def turns (c : Reception) (n : ℕ) : Turn :=
  match c.received n with
  | .idle => .tick
  | .failed => .stop
  | .frame bytes => if msgType c.client bytes > 0 then .stop else .skip

end Reception

/-- The ticks in a timeout. -/
def Timeout.ticks (timeout : Timeout) : ℕ := (timeout.ms.toNat + 99) / 100

theorem Timeout.lt_iff (timeout : Timeout) (k : ℕ) :
    POLL_INTERVAL * k < timeout.ms ↔ k < timeout.ticks := by
  simp only [Timeout.ticks, POLL_INTERVAL]
  omega

/-! ### Turns and time -/

variable {c : Reception} {w : Wait} {n : ℕ} {timeout : Timeout}

/-- What a turn makes of a wait: a stop ends it, and only a tick takes time. -/
theorem waitPass_cases (hqueue : w.queue = c.queueAt n) :
    (c.turns n = .stop ∧ ∃ rc w', waitPass c.client w (c.passes n) = .returned rc w') ∨
      (c.turns n ≠ .stop ∧ ∃ w', waitPass c.client w (c.passes n) = .again w' ∧
        w'.queue = c.queueAt (n + 1) ∧
        w'.elapsed = w.elapsed + if c.turns n = .tick then POLL_INTERVAL else 0) := by
  unfold Reception.turns Reception.received waitPass
  rw [hqueue, Reception.queueAt]
  cases hnext : nextFrame (c.queueAt n) (c.passes n) with
  | mk received queue =>
    cases received with
    | idle => exact .inr ⟨by simp, _, rfl, rfl, rfl⟩
    | failed => exact .inl ⟨rfl, _, _, rfl⟩
    | frame bytes =>
      simp only [parseDhcpResponse_fst]
      by_cases htype : msgType c.client bytes > 0
      · simp only [if_pos htype]
        exact .inl ⟨trivial, _, _, rfl⟩
      · simp only [if_neg htype]
        exact .inr ⟨by simp, _, rfl, rfl, by simp⟩

/-- **The time is the ticks.** While a wait is on, no turn has stopped it, its queue is the one of
    the reception, and its time is 100 ms for each tick. -/
theorem waitLoop_again (h : waitLoop timeout c n = .again w) :
    w.queue = c.queueAt n ∧ w.elapsed = POLL_INTERVAL * ticks c.turns n ∧
      ∀ i < n, c.turns i ≠ .stop ∧ ticks c.turns i < timeout.ticks := by
  induction n generalizing w with
  | zero =>
    obtain rfl := Waited.again.inj h
    exact ⟨rfl, by simp [ticks], fun i hi => absurd hi (Nat.not_lt_zero i)⟩
  | succ n ih =>
    rw [waitLoop] at h
    cases hprev : waitLoop timeout c n with
    | returned rc w₀ =>
      rw [hprev] at h
      exact absurd h (by simp)
    | again w₀ =>
      rw [hprev] at h
      obtain ⟨hqueue, helapsed, hbefore⟩ := ih hprev
      simp only [waitTurn] at h
      split at h
      · rename_i htime
        rw [helapsed, timeout.lt_iff] at htime
        rcases waitPass_cases hqueue with ⟨-, rc, w', hpass⟩ | ⟨hkind, w', hpass, hqueue', hw'⟩
        · rw [hpass] at h
          exact absurd h (by simp)
        · obtain rfl := Waited.again.inj (hpass.symm.trans h)
          refine ⟨hqueue', ?_, ?_⟩
          · rw [hw', helapsed, ticks, ticks, Nat.count_succ, Nat.cast_add, Int.mul_add]
            split <;> simp
          · intro i hi
            rcases Nat.lt_succ_iff_lt_or_eq.mp hi with hlt | rfl
            · exact hbefore i hlt
            · exact ⟨hkind, htime⟩
      · exact absurd h (by simp)

/-- The `int` that counts the time never overflows. -/
theorem elapsed_le {timeout : Timeout} {c : Reception} {n : ℕ} {w : Wait}
    (h : waitLoop timeout c n = .again w) : w.elapsed ≤ 2147483647 := by
  obtain ⟨-, helapsed, hbefore⟩ := waitLoop_again h
  have hmax := timeout.no_overflow
  cases n with
  | zero => simp [helapsed, ticks]
  | succ n =>
    have hlast := (hbefore n (Nat.lt_succ_self n)).2
    have hstep : ticks c.turns (n + 1) ≤ ticks c.turns n + 1 := by
      rw [ticks, ticks, Nat.count_succ]
      split <;> omega
    simp only [Timeout.ticks, POLL_INTERVAL] at hlast helapsed
    omega

/-- A wait that has returned is at its end. -/
theorem over_of_returned {rc : ℤ} (h : waitLoop timeout c n = .returned rc w) :
    Over c.turns timeout.ticks n := by
  induction n generalizing rc w with
  | zero => exact absurd h (by simp [waitLoop])
  | succ n ih =>
    rw [waitLoop] at h
    cases hprev : waitLoop timeout c n with
    | returned rc₀ w₀ => exact (ih hprev).mono (Nat.le_succ n)
    | again w₀ =>
      rw [hprev] at h
      obtain ⟨hqueue, helapsed, -⟩ := waitLoop_again hprev
      simp only [waitTurn] at h
      split at h
      · rcases waitPass_cases hqueue with ⟨hstop, -⟩ | ⟨-, w', hpass, -⟩
        · exact .inl ⟨n, Nat.lt_succ_self n, hstop⟩
        · rw [hpass] at h
          exact absurd h (by simp)
      · rename_i htime
        rw [helapsed, timeout.lt_iff, Nat.not_lt] at htime
        exact Over.mono (.inr htime) (Nat.le_succ n)

/-- A wait at its end returns with the next turn. -/
theorem returned_of_over (h : Over c.turns timeout.ticks n) :
    ∃ rc w, waitLoop timeout c (n + 1) = .returned rc w := by
  rw [waitLoop]
  cases hprev : waitLoop timeout c n with
  | returned rc w => exact ⟨rc, w, rfl⟩
  | again w =>
    obtain ⟨-, helapsed, hbefore⟩ := waitLoop_again hprev
    rcases h with ⟨i, hi, hkind⟩ | hticks
    · exact absurd hkind (hbefore i hi).1
    · have htime : ¬ w.elapsed < timeout.ms := by
        rw [helapsed, timeout.lt_iff]
        exact Nat.not_lt.mpr hticks
      exact ⟨0, w, if_neg htime⟩

/-! ### Which calls are bounded -/

/-- **Bounded waits.** For every set of calls, whatever they receive: they return within a number
    of turns that depends on the timeout alone, if and only if the frames that a call rejects
    before its end (a DHCP message, a failure, or the idle turns of the timeout) are bounded by the
    timeout. -/
theorem wait_bounded_iff (calls : Set Reception) :
    WaitBounded calls ↔
      ∃ most : Timeout → ℕ, ∀ timeout, ∀ c ∈ calls, ∀ n,
        ¬ Over c.turns timeout.ticks n → skips c.turns n ≤ most timeout := by
  have hgeneral := bounded_iff (fun i : Timeout × calls => i.2.val.turns) Prod.fst Timeout.ticks
  constructor
  · rintro ⟨bound, hbound⟩
    obtain ⟨most, hmost⟩ := hgeneral.mp ⟨bound, fun i => by
      obtain ⟨rc, w, h⟩ := hbound i.1 i.2.val i.2.property
      exact over_of_returned h⟩
    exact ⟨most, fun timeout c hc n => hmost (timeout, ⟨c, hc⟩) n⟩
  · rintro ⟨most, hmost⟩
    obtain ⟨bound, hbound⟩ := hgeneral.mpr
      ⟨most, fun i n => hmost i.1 i.2.val i.2.property n⟩
    exact ⟨fun timeout => bound timeout + 1,
      fun timeout c hc => returned_of_over (hbound (timeout, ⟨c, hc⟩))⟩

/-! ### A busy LAN -/

/-- The client of the calls below. -/
def busyClient : Client := ⟨7, [2, 0, 0, 0, 0, 1], rfl⟩

/-- Every turn brings a frame of one byte. -/
def busyLan : Reception where
  client := busyClient
  queue := []
  lease := ⟨.zero, 0⟩
  passes := fun _ => ⟨true, 3, tcpDirectionBoth, [], -1, 1, ⟨1, [⟨[0], 0⟩], true, fun _ => rfl⟩⟩

theorem busyLan_turns (n : ℕ) : busyLan.turns n = .skip := by
  have hqueue : busyLan.queueAt n = [] := by
    induction n with
    | zero => rfl
    | succ n ih => rw [Reception.queueAt, ih]; rfl
  rw [Reception.turns, Reception.received, hqueue]
  rfl

/-- No number of turns is enough for a call on a busy LAN. -/
theorem busy_lan_unbounded : ¬ WaitBounded Set.univ := by
  rintro ⟨bound, hbound⟩
  obtain ⟨rc, w, h⟩ := hbound ⟨5000, by decide⟩ busyLan trivial
  rcases over_of_returned h with ⟨i, -, hstop⟩ | hticks
  · rw [busyLan_turns] at hstop
    exact absurd hstop (by decide)
  · simp [ticks, busyLan_turns, Timeout.ticks] at hticks

end SoftEther.Dhcp
