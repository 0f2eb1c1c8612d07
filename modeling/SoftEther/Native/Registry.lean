import Mathlib.Data.List.Infix
import SoftEther.Lib.JavaLong

namespace SoftEther.Native

open Lib

/-!
# The process-wide native slot

`NativeLifetimeRegistry` admits one native connection attempt at a time.  A caller that
is granted the slot holds a `Lease`; every later call names the lease it was made for.
Two soft bounds take the slot from a holder that stopped answering.

* `Registry` — the fields guarded by the lock, and the methods on them;
* `Call`, `Registry.call` — one method call at one clock reading;
* `History` — the calls made so far, the latest first;
* `StaleTeardown`, `StuckConnecting` — the conditions of the two soft bounds;
* `CallEffect`, `call_effect` — what a call can do to the slot: keep it, free it or grant it.

The attempt counter is not wrapped: a process does not make `2^63` attempts.  The clock is
Java's `long`, with the wrap of its subtraction.
-/

/-! ### The registry -/

/-- Sentinel for "no attempt owns the native slot". -/
abbrev NO_ATTEMPT : ℕ := 0

/-- Soft bound of a holder in `TEARDOWN`. -/
abbrev NATIVE_SLOT_FORCE_RELEASE_AFTER_MS : ℤ := 90000

/-- Soft bound of a holder in `CONNECTING`. -/
abbrev NATIVE_SLOT_FORCE_RELEASE_CONNECTING_AFTER_MS : ℤ := 30000

inductive Phase
  | reserved
  | connecting
  | connected
  | teardown
  deriving DecidableEq, Repr

inductive ReleaseOutcome
  | normal
  | forcedReleaseAfterTimeout
  | forcedReleaseConnectingStuck
  deriving DecidableEq, Repr

/-- A granted claim on the slot.  Leases are built by `tryAcquire` only, whose ids start
    at one. -/
structure Lease where
  attemptId : ℕ
  issued : attemptId ≠ NO_ATTEMPT
  deriving DecidableEq

/-- The fields that the registry's lock guards. -/
structure Registry where
  lastAttemptId : ℕ := NO_ATTEMPT
  activeAttemptId : ℕ := NO_ATTEMPT
  activePhase : Phase := .reserved
  deadlineExpired : Bool := false
  teardownRequestedAtMs : ℤ := 0
  connectingEnteredAtMs : ℤ := 0
  lastReleaseOutcome : ReleaseOutcome := .normal
  deriving DecidableEq

/-- `nowMs() - stamp`. -/
def heldMs (nowMs stamp : ℤ) : ℤ := longSub nowMs stamp

namespace Registry

/-- What both soft bounds write when they take the slot. -/
def forceRelease (outcome : ReleaseOutcome) (r : Registry) : Registry :=
  { r with
    activeAttemptId := NO_ATTEMPT
    activePhase := .reserved
    deadlineExpired := false
    teardownRequestedAtMs := 0
    connectingEnteredAtMs := 0
    lastReleaseOutcome := outcome }

/-- The `TEARDOWN` soft bound; the text is the audit line of a release. -/
def forceReleaseIfTimedOutLocked (nowMs : ℤ) (r : Registry) : Registry × Option String :=
  if r.deadlineExpired = false then (r, none)
  else if r.activePhase ≠ .teardown then (r, none)
  else if r.teardownRequestedAtMs = 0 then (r, none)
  else if heldMs nowMs r.teardownRequestedAtMs < NATIVE_SLOT_FORCE_RELEASE_AFTER_MS then (r, none)
  else
    (r.forceRelease .forcedReleaseAfterTimeout,
      some ("[REGISTRY] FORCED_RELEASE_AFTER_TIMEOUT: attempt=" ++ toString r.activeAttemptId ++
        " held for " ++ toString (heldMs nowMs r.teardownRequestedAtMs) ++
        " ms past deadline; native operation may still be running. " ++
        "Releasing slot to unblock new attempt."))

/-- The `CONNECTING` soft bound. -/
def forceReleaseIfConnectingStuckLocked (nowMs : ℤ) (r : Registry) : Registry × Option String :=
  if r.activePhase ≠ .connecting then (r, none)
  else if r.connectingEnteredAtMs = 0 then (r, none)
  else if heldMs nowMs r.connectingEnteredAtMs <
      NATIVE_SLOT_FORCE_RELEASE_CONNECTING_AFTER_MS then (r, none)
  else
    (r.forceRelease .forcedReleaseConnectingStuck,
      some ("[REGISTRY] FORCED_RELEASE_CONNECTING_STUCK: attempt=" ++ toString r.activeAttemptId ++
        " held in CONNECTING for " ++ toString (heldMs nowMs r.connectingEnteredAtMs) ++
        " ms; native operation may still be running. " ++
        "Releasing slot to unblock new attempt."))

/-- The two soft bounds in the order in which `tryAcquire` asks them. -/
def forceReleaseLocked (nowMs : ℤ) (r : Registry) : Registry × Option String :=
  match r.forceReleaseIfTimedOutLocked nowMs with
  | (r', some message) => (r', some message)
  | (r', none) => r'.forceReleaseIfConnectingStuckLocked nowMs

/-- The second half of `tryAcquire`: refuse while the slot is held, grant the next id
    otherwise. -/
def acquireLocked (r : Registry) (forcedReleaseMessage : Option String) :
    Registry × Option Lease × Option String :=
  if r.activeAttemptId ≠ NO_ATTEMPT then (r, none, forcedReleaseMessage)
  else
    ({ r with
        lastAttemptId := r.lastAttemptId + 1
        activeAttemptId := r.lastAttemptId + 1
        activePhase := .reserved
        deadlineExpired := false
        teardownRequestedAtMs := 0
        connectingEnteredAtMs := 0 },
      some ⟨r.lastAttemptId + 1, Nat.succ_ne_zero _⟩, forcedReleaseMessage)

/-- `tryAcquire`: the registry after it, the lease it grants and the line it logs. -/
def tryAcquire (nowMs : ℤ) (r : Registry) : Registry × Option Lease × Option String :=
  if r.activeAttemptId ≠ NO_ATTEMPT then
    (r.forceReleaseLocked nowMs).1.acquireLocked (r.forceReleaseLocked nowMs).2
  else r.acquireLocked none

/-- Apply `change` only while `lease` is still the active attempt. -/
def mutate (lease : Option Lease) (change : Registry → Registry) (r : Registry) : Registry :=
  match lease with
  | none => r
  | some lease => if lease.attemptId ≠ r.activeAttemptId then r else change r

def markNativeEntered (nowMs : ℤ) (lease : Option Lease) (r : Registry) : Registry :=
  r.mutate lease fun r => { r with activePhase := .connecting, connectingEnteredAtMs := nowMs }

def markConnected (lease : Option Lease) (r : Registry) : Registry :=
  r.mutate lease fun r => { r with activePhase := .connected }

/-- Only the first request of an attempt is stamped. -/
def markTeardownRequested (nowMs : ℤ) (lease : Option Lease) (r : Registry) : Registry :=
  r.mutate lease fun r =>
    { r with
      activePhase := .teardown
      teardownRequestedAtMs :=
        if r.teardownRequestedAtMs = 0 then nowMs else r.teardownRequestedAtMs }

def markDeadlineExpired (lease : Option Lease) (r : Registry) : Registry :=
  r.mutate lease fun r => { r with deadlineExpired := true }

/-- `confirmTeardown`, with the answer whether this call released the slot. -/
def confirmTeardown (lease : Option Lease) (r : Registry) : Registry × Bool :=
  match lease with
  | none => (r, false)
  | some lease =>
    if lease.attemptId ≠ r.activeAttemptId then (r, false)
    else
      ({ r with activeAttemptId := NO_ATTEMPT, activePhase := .reserved, deadlineExpired := false },
        true)

/-- The release that takes no lease. -/
def confirmTeardownWithoutLease (r : Registry) : Registry × Bool :=
  if r.activeAttemptId = NO_ATTEMPT then (r, false)
  else
    ({ r with activeAttemptId := NO_ATTEMPT, activePhase := .reserved, deadlineExpired := false },
      true)

/-- The `TEARDOWN` soft bound for a caller that does not ask for admission.  It does not
    look whether an attempt is active: an idle registry has no expired deadline. -/
def forceReleaseStaleTeardown (nowMs : ℤ) (r : Registry) : Registry × Bool :=
  let (r', message) := r.forceReleaseIfTimedOutLocked nowMs
  (r', message.isSome)

end Registry

/-! ### Calls -/

/-- A call on the registry; `none` is Kotlin's `null` lease. -/
inductive Call
  | tryAcquire
  | markNativeEntered (lease : Option Lease)
  | markConnected (lease : Option Lease)
  | markTeardownRequested (lease : Option Lease)
  | markDeadlineExpired (lease : Option Lease)
  | confirmTeardown (lease : Option Lease)
  | confirmTeardownWithoutLease
  | forceReleaseStaleTeardown
  deriving DecidableEq

/-- The lease argument of a call, for the calls that have one. -/
def Call.lease : Call → Option (Option Lease)
  | .tryAcquire => none
  | .markNativeEntered lease => some lease
  | .markConnected lease => some lease
  | .markTeardownRequested lease => some lease
  | .markDeadlineExpired lease => some lease
  | .confirmTeardown lease => some lease
  | .confirmTeardownWithoutLease => none
  | .forceReleaseStaleTeardown => none

/-- The registry after a call at the clock reading `nowMs`, and the lease it grants. -/
def Registry.call (nowMs : ℤ) (c : Call) (r : Registry) : Registry × Option Lease :=
  match c with
  | .tryAcquire => ((r.tryAcquire nowMs).1, (r.tryAcquire nowMs).2.1)
  | .markNativeEntered lease => (r.markNativeEntered nowMs lease, none)
  | .markConnected lease => (r.markConnected lease, none)
  | .markTeardownRequested lease => (r.markTeardownRequested nowMs lease, none)
  | .markDeadlineExpired lease => (r.markDeadlineExpired lease, none)
  | .confirmTeardown lease => ((r.confirmTeardown lease).1, none)
  | .confirmTeardownWithoutLease => (r.confirmTeardownWithoutLease.1, none)
  | .forceReleaseStaleTeardown => ((r.forceReleaseStaleTeardown nowMs).1, none)

/-! A mark is a change under the caller's lease. -/

theorem Registry.call_markNativeEntered (nowMs : ℤ) (lease : Option Lease) (r : Registry) :
    (r.call nowMs (.markNativeEntered lease)).1 =
      r.mutate lease fun r =>
        { r with activePhase := .connecting, connectingEnteredAtMs := nowMs } :=
  rfl

theorem Registry.call_markConnected (nowMs : ℤ) (lease : Option Lease) (r : Registry) :
    (r.call nowMs (.markConnected lease)).1 =
      r.mutate lease fun r => { r with activePhase := .connected } :=
  rfl

theorem Registry.call_markTeardownRequested (nowMs : ℤ) (lease : Option Lease) (r : Registry) :
    (r.call nowMs (.markTeardownRequested lease)).1 =
      r.mutate lease fun r =>
        { r with
          activePhase := .teardown
          teardownRequestedAtMs :=
            if r.teardownRequestedAtMs = 0 then nowMs else r.teardownRequestedAtMs } :=
  rfl

theorem Registry.call_markDeadlineExpired (nowMs : ℤ) (lease : Option Lease) (r : Registry) :
    (r.call nowMs (.markDeadlineExpired lease)).1 =
      r.mutate lease fun r => { r with deadlineExpired := true } :=
  rfl

/-- The calls made so far with the clock reading of each, the latest call first. -/
abbrev History := List (ℤ × Call)

/-- The clock does not run backwards. -/
def ClockForward (h : History) : Prop := h.Pairwise fun later earlier => earlier.1 ≤ later.1

/-- The registry after the calls of a history, starting with a fresh one. -/
def registry : History → Registry
  | [] => {}
  | (nowMs, c) :: h => ((registry h).call nowMs c).1

/-- The attempt that holds the slot after `h`. -/
abbrev holder (h : History) : ℕ := (registry h).activeAttemptId

/-! ### What one call does to the slot -/

namespace Registry

/-- What the `TEARDOWN` soft bound asks for. -/
def StaleTeardown (nowMs : ℤ) (r : Registry) : Prop :=
  r.deadlineExpired = true ∧ r.activePhase = .teardown ∧ r.teardownRequestedAtMs ≠ 0 ∧
    NATIVE_SLOT_FORCE_RELEASE_AFTER_MS ≤ heldMs nowMs r.teardownRequestedAtMs

/-- What the `CONNECTING` soft bound asks for. -/
def StuckConnecting (nowMs : ℤ) (r : Registry) : Prop :=
  r.activePhase = .connecting ∧ r.connectingEnteredAtMs ≠ 0 ∧
    NATIVE_SLOT_FORCE_RELEASE_CONNECTING_AFTER_MS ≤ heldMs nowMs r.connectingEnteredAtMs

/-- The `TEARDOWN` bound leaves the registry alone or takes a stale slot. -/
theorem forceReleaseIfTimedOutLocked_cases (nowMs : ℤ) (r : Registry) :
    r.forceReleaseIfTimedOutLocked nowMs = (r, none) ∨
      r.StaleTeardown nowMs ∧
        (r.forceReleaseIfTimedOutLocked nowMs).1 = r.forceRelease .forcedReleaseAfterTimeout ∧
        (r.forceReleaseIfTimedOutLocked nowMs).2.isSome := by
  unfold forceReleaseIfTimedOutLocked StaleTeardown
  split_ifs with hexp hphase hstamp hheld
  · exact .inl rfl
  · exact .inl rfl
  · exact .inl rfl
  · exact .inl rfl
  · refine .inr ⟨⟨?_, ?_, hstamp, Int.not_lt.mp hheld⟩, rfl, rfl⟩
    · simpa using hexp
    · simpa using hphase

theorem forceReleaseIfConnectingStuckLocked_cases (nowMs : ℤ) (r : Registry) :
    (r.forceReleaseIfConnectingStuckLocked nowMs).1 = r ∨
      r.StuckConnecting nowMs ∧
        (r.forceReleaseIfConnectingStuckLocked nowMs).1 =
          r.forceRelease .forcedReleaseConnectingStuck := by
  unfold forceReleaseIfConnectingStuckLocked StuckConnecting
  split_ifs with hphase hstamp hheld
  · exact .inl rfl
  · exact .inl rfl
  · exact .inl rfl
  · refine .inr ⟨⟨?_, hstamp, Int.not_lt.mp hheld⟩, rfl⟩
    simpa using hphase

/-- The two bounds together: the slot stays, or one of the two conditions held. -/
theorem forceReleaseLocked_cases (nowMs : ℤ) (r : Registry) :
    (r.forceReleaseLocked nowMs).1 = r ∨
      (r.StaleTeardown nowMs ∨ r.StuckConnecting nowMs) ∧
        ∃ outcome, (r.forceReleaseLocked nowMs).1 = r.forceRelease outcome := by
  unfold forceReleaseLocked
  rcases r.forceReleaseIfTimedOutLocked_cases nowMs with hkeep | ⟨hstale, hfst, hsome⟩
  · rw [hkeep]
    rcases r.forceReleaseIfConnectingStuckLocked_cases nowMs with hfst | ⟨hstuck, hfst⟩
    · exact .inl hfst
    · exact .inr ⟨.inr hstuck, _, hfst⟩
  · obtain ⟨message, hmessage⟩ := Option.isSome_iff_exists.mp hsome
    refine .inr ⟨.inl hstale, .forcedReleaseAfterTimeout, ?_⟩
    rw [show r.forceReleaseIfTimedOutLocked nowMs =
      (r.forceRelease .forcedReleaseAfterTimeout, some message) from Prod.ext hfst hmessage]

/-- The registry right after a grant. -/
structure JustGranted (r r' : Registry) : Prop where
  last : r'.lastAttemptId = r.lastAttemptId + 1
  active : r'.activeAttemptId = r.lastAttemptId + 1
  phase : r'.activePhase = .reserved
  unstamped : r'.teardownRequestedAtMs = 0

theorem acquireLocked_held {r : Registry} (h : r.activeAttemptId ≠ NO_ATTEMPT)
    (message : Option String) :
    r.acquireLocked message = (r, none, message) :=
  if_pos h

theorem acquireLocked_idle {r : Registry} (h : r.activeAttemptId = NO_ATTEMPT)
    (message : Option String) :
    JustGranted r (r.acquireLocked message).1 ∧
      (r.acquireLocked message).2.1 = some ⟨r.lastAttemptId + 1, Nat.succ_ne_zero _⟩ := by
  unfold acquireLocked
  rw [if_neg (not_not.mpr h)]
  exact ⟨⟨rfl, rfl, rfl, rfl⟩, rfl⟩

/-- **The answers of `tryAcquire`.** A held slot stays as it is and the caller is refused; or
    the slot was idle, or one of the soft bounds took it, and the caller gets the next id. -/
theorem tryAcquire_cases (nowMs : ℤ) (r : Registry) :
    (r.activeAttemptId ≠ NO_ATTEMPT ∧ (r.tryAcquire nowMs).1 = r ∧
        (r.tryAcquire nowMs).2.1 = none) ∨
      ((r.activeAttemptId = NO_ATTEMPT ∨ r.StaleTeardown nowMs ∨ r.StuckConnecting nowMs) ∧
        JustGranted r (r.tryAcquire nowMs).1 ∧
        (r.tryAcquire nowMs).2.1 = some ⟨r.lastAttemptId + 1, Nat.succ_ne_zero _⟩) := by
  unfold tryAcquire
  by_cases hidle : r.activeAttemptId = NO_ATTEMPT
  · rw [if_neg (not_not.mpr hidle)]
    exact .inr ⟨.inl hidle, acquireLocked_idle hidle none⟩
  · rw [if_pos hidle]
    rcases r.forceReleaseLocked_cases nowMs with hkeep | ⟨hbound, outcome, hfree⟩
    · rw [hkeep, acquireLocked_held hidle]
      exact .inl ⟨hidle, rfl, rfl⟩
    · obtain ⟨hjust, hlease⟩ :=
        acquireLocked_idle (r := r.forceRelease outcome) rfl (r.forceReleaseLocked nowMs).2
      rw [hfree]
      exact .inr ⟨.inr hbound, ⟨hjust.last, hjust.active, hjust.phase, hjust.unstamped⟩, hlease⟩

/-- A change made under a lease is made to the registry of its holder, or not at all. -/
theorem mutate_cases (lease : Option Lease) (change : Registry → Registry) (r : Registry) :
    (lease.map Lease.attemptId ≠ some r.activeAttemptId ∧ r.mutate lease change = r) ∨
      (lease.map Lease.attemptId = some r.activeAttemptId ∧ r.mutate lease change = change r) := by
  unfold mutate
  split
  · exact .inl ⟨nofun, rfl⟩
  · rename_i l
    by_cases hl : l.attemptId = r.activeAttemptId
    · exact .inr ⟨congrArg some hl, if_neg (not_not.mpr hl)⟩
    · exact .inl ⟨fun h => hl (Option.some.inj h), if_pos hl⟩

/-- A change that keeps the ids keeps them under every lease. -/
theorem mutate_ids (lease : Option Lease) {change : Registry → Registry} {r : Registry}
    (hactive : (change r).activeAttemptId = r.activeAttemptId)
    (hlast : (change r).lastAttemptId = r.lastAttemptId) :
    (r.mutate lease change).activeAttemptId = r.activeAttemptId ∧
      (r.mutate lease change).lastAttemptId = r.lastAttemptId := by
  rcases r.mutate_cases lease change with ⟨_, h⟩ | ⟨_, h⟩
  · rw [h]; exact ⟨rfl, rfl⟩
  · rw [h]; exact ⟨hactive, hlast⟩

end Registry

/-- The caller gives the slot back under the lease of `i`. -/
def OwnConfirm (i : ℕ) (c : Call) : Prop := ∃ l, c = .confirmTeardown (some l) ∧ l.attemptId = i

/-- What a call can do to the slot. -/
inductive CallEffect (nowMs : ℤ) (c : Call) (r r' : Registry) (granted : Option Lease) : Prop
  | kept (active : r'.activeAttemptId = r.activeAttemptId)
      (last : r'.lastAttemptId = r.lastAttemptId) (refused : granted = none)
  | freed (held : r.activeAttemptId ≠ NO_ATTEMPT) (active : r'.activeAttemptId = NO_ATTEMPT)
      (last : r'.lastAttemptId = r.lastAttemptId) (refused : granted = none)
      (why : OwnConfirm r.activeAttemptId c ∨ c = .confirmTeardownWithoutLease ∨
        c = .forceReleaseStaleTeardown ∧ r.StaleTeardown nowMs)
  | grants (call : c = .tryAcquire) (just : r.JustGranted r')
      (lease : granted = some ⟨r.lastAttemptId + 1, Nat.succ_ne_zero _⟩)
      (why : r.activeAttemptId = NO_ATTEMPT ∨ r.StaleTeardown nowMs ∨ r.StuckConnecting nowMs)

/-- **Inversion of a call.** -/
theorem call_effect (nowMs : ℤ) (c : Call) (r : Registry) :
    CallEffect nowMs c r (r.call nowMs c).1 (r.call nowMs c).2 := by
  -- The four marks go through `mutate`, which never touches the ids.
  have hmark : ∀ lease (change : Registry → Registry),
      (change r).activeAttemptId = r.activeAttemptId →
      (change r).lastAttemptId = r.lastAttemptId →
      CallEffect nowMs c r (r.mutate lease change) none := by
    intro lease change hactive hlast
    obtain ⟨ha, hl⟩ := Registry.mutate_ids lease hactive hlast
    exact .kept ha hl rfl
  cases c with
  | tryAcquire =>
    rcases r.tryAcquire_cases nowMs with ⟨_, hreg, hlease⟩ | ⟨hwhy, hjust, hlease⟩
    · exact .kept (congrArg _ hreg) (congrArg _ hreg) hlease
    · exact .grants rfl hjust hlease hwhy
  | markNativeEntered lease => apply hmark lease <;> rfl
  | markConnected lease => apply hmark lease <;> rfl
  | markTeardownRequested lease => apply hmark lease <;> rfl
  | markDeadlineExpired lease => apply hmark lease <;> rfl
  | confirmTeardown lease =>
    simp only [Registry.call, Registry.confirmTeardown]
    split
    · exact .kept rfl rfl rfl
    · rename_i l
      split_ifs with hl
      · exact .kept rfl rfl rfl
      · rw [not_not] at hl
        exact .freed (hl ▸ l.issued) rfl rfl rfl (.inl ⟨l, rfl, hl⟩)
  | confirmTeardownWithoutLease =>
    simp only [Registry.call, Registry.confirmTeardownWithoutLease]
    split_ifs with hidle
    · exact .kept rfl rfl rfl
    · exact .freed hidle rfl rfl rfl (.inr (.inl rfl))
  | forceReleaseStaleTeardown =>
    simp only [Registry.call, Registry.forceReleaseStaleTeardown]
    rcases r.forceReleaseIfTimedOutLocked_cases nowMs with hkeep | ⟨hstale, hfst, _⟩
    · rw [hkeep]
      exact .kept rfl rfl rfl
    · rw [hfst]
      by_cases hidle : r.activeAttemptId = NO_ATTEMPT
      · exact .kept hidle.symm rfl rfl
      · exact .freed hidle rfl rfl rfl (.inr (.inr ⟨rfl, hstale⟩))

end SoftEther.Native
