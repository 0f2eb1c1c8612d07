import SoftEther.Native.Exclusion

namespace SoftEther.Native

open Lib

/-!
# Recovery of the slot from an attempt in teardown

What the registry knows of the attempt that holds the slot is decided by the marks made under its
lease since it was granted, and with it whether the next `tryAcquire` is granted.

* `sinceGrant` — the calls since the last grant;
* `lastMark`, `deadlineMarked`, `firstRequest`, `stampedRequest`, `lastEntry` — the marks of the
  holder, read off these calls;
* `Recorded`, `recorded_of_held` — the fields of the registry are these marks;
* `slot_recovered_iff` — when the slot is granted to the next attempt.
-/

/-! ### The marks of the holder -/

/-- The calls since the last grant, the latest first. -/
def sinceGrant : History → History
  | [] => []
  | (nowMs, c) :: h =>
    if ((registry h).call nowMs c).2.isSome then [] else (nowMs, c) :: sinceGrant h

/-- The phase that a call of the attempt `i` marks. -/
def Call.phaseMark (i : ℕ) : Call → Option Phase
  | .markNativeEntered lease =>
    if lease.map Lease.attemptId = some i then some .connecting else none
  | .markConnected lease => if lease.map Lease.attemptId = some i then some .connected else none
  | .markTeardownRequested lease =>
    if lease.map Lease.attemptId = some i then some .teardown else none
  | _ => none

/-- The report that the wait for the attempt `i` is over. -/
def Call.expiresDeadline (i : ℕ) : Call → Bool
  | .markDeadlineExpired lease => lease.map Lease.attemptId = some i
  | _ => false

/-- The last phase that the holder marked. -/
def lastMark (h : History) : Option Phase :=
  (sinceGrant h).findSome? fun e => e.2.phaseMark (holder h)

/-- The deadline of the holder was marked as expired. -/
def deadlineMarked (h : History) : Bool :=
  (sinceGrant h).any fun e => e.2.expiresDeadline (holder h)

/-- The clock readings of the teardown requests of the holder, the latest first. -/
abbrev requests (h : History) : List ℤ := times (Call.requestsTeardown (holder h)) (sinceGrant h)

/-- When teardown was requested first. -/
def firstRequest (h : History) : Option ℤ := (requests h).getLast?

/-- The request that is stamped: the first one, unless the clock read zero there. -/
def stampedRequest (h : History) : Option ℤ := (requests h).reverse.find? (· ≠ 0)

/-- When the holder entered its native call last. -/
def lastEntry (h : History) : Option ℤ :=
  (times (Call.entersNative (holder h)) (sinceGrant h)).head?

/-! ### What one call adds -/

section Cons

variable {nowMs : ℤ} {c : Call} {h : History}

theorem sinceGrant_cons (hrefused : ((registry h).call nowMs c).2 = none) :
    sinceGrant ((nowMs, c) :: h) = (nowMs, c) :: sinceGrant h := by
  rw [sinceGrant, hrefused, Option.isSome_none, if_neg Bool.false_ne_true]

theorem sinceGrant_granted {l : Lease} (hlease : ((registry h).call nowMs c).2 = some l) :
    sinceGrant ((nowMs, c) :: h) = [] := by
  rw [sinceGrant, hlease, Option.isSome_some, if_pos rfl]

variable (hrefused : ((registry h).call nowMs c).2 = none)
  (hactive : holder ((nowMs, c) :: h) = holder h)

include hrefused hactive

theorem lastMark_cons :
    lastMark ((nowMs, c) :: h) = (c.phaseMark (holder h)).or (lastMark h) := by
  rw [lastMark, sinceGrant_cons hrefused, hactive, List.findSome?_cons, lastMark]
  cases c.phaseMark (holder h) <;> rfl

theorem deadlineMarked_cons :
    deadlineMarked ((nowMs, c) :: h) = (c.expiresDeadline (holder h) || deadlineMarked h) := by
  rw [deadlineMarked, sinceGrant_cons hrefused, hactive, List.any_cons, deadlineMarked]

theorem stampedRequest_cons (hrequest : c.requestsTeardown (holder h) = true) :
    (stampedRequest ((nowMs, c) :: h)).getD 0 =
      if (stampedRequest h).getD 0 = 0 then nowMs else (stampedRequest h).getD 0 := by
  have hrequests : requests ((nowMs, c) :: h) = nowMs :: requests h := by
    rw [requests, sinceGrant_cons hrefused, hactive, times_cons_pos hrequest]
  rw [stampedRequest, hrequests, List.reverse_cons, List.find?_append, ← stampedRequest]
  cases hstamp : stampedRequest h with
  | some stamp =>
    -- what was stamped is no zero
    have hne := List.find?_some hstamp
    rw [decide_eq_true_eq] at hne
    rw [Option.some_or, Option.getD_some, if_neg hne]
  | none =>
    rw [Option.none_or, Option.getD_none, if_pos rfl]
    by_cases hzero : nowMs = 0
    · simp [hzero]
    · simp [hzero]

theorem stampedRequest_cons_of_not (hrequest : c.requestsTeardown (holder h) = false) :
    stampedRequest ((nowMs, c) :: h) = stampedRequest h := by
  rw [stampedRequest, requests, sinceGrant_cons hrefused, hactive, times_cons_neg hrequest]
  rfl

theorem lastEntry_cons (hentry : c.entersNative (holder h) = true) :
    lastEntry ((nowMs, c) :: h) = some nowMs := by
  rw [lastEntry, sinceGrant_cons hrefused, hactive, times_cons_pos hentry]
  rfl

theorem lastEntry_cons_of_not (hentry : c.entersNative (holder h) = false) :
    lastEntry ((nowMs, c) :: h) = lastEntry h := by
  rw [lastEntry, sinceGrant_cons hrefused, hactive, times_cons_neg hentry]
  rfl

end Cons

/-! ### The fields of the registry -/

/-- **The registry holds the marks of its holder.** -/
structure Recorded (h : History) : Prop where
  phase : (registry h).activePhase = (lastMark h).getD .reserved
  deadline : (registry h).deadlineExpired = deadlineMarked h
  teardown : (registry h).teardownRequestedAtMs = (stampedRequest h).getD 0
  connecting : (registry h).connectingEnteredAtMs = (lastEntry h).getD 0

namespace Recorded

variable {nowMs : ℤ} {c : Call} {h : History}

/-- **What one call writes**: a mark of the phase, the mark of the deadline, the first stamp of a
    request, and the time of an entry. -/
theorem of_writes (hr : Recorded h) (hrefused : ((registry h).call nowMs c).2 = none)
    (hactive : holder ((nowMs, c) :: h) = holder h)
    (hphase : (registry ((nowMs, c) :: h)).activePhase =
      (c.phaseMark (holder h)).getD (registry h).activePhase)
    (hdeadline : (registry ((nowMs, c) :: h)).deadlineExpired =
      (c.expiresDeadline (holder h) || (registry h).deadlineExpired))
    (hteardown : (registry ((nowMs, c) :: h)).teardownRequestedAtMs =
      if c.requestsTeardown (holder h) = true ∧ (registry h).teardownRequestedAtMs = 0 then nowMs
      else (registry h).teardownRequestedAtMs)
    (hconnecting : (registry ((nowMs, c) :: h)).connectingEnteredAtMs =
      if c.entersNative (holder h) = true then nowMs else (registry h).connectingEnteredAtMs) :
    Recorded ((nowMs, c) :: h) := by
  constructor
  · rw [hphase, lastMark_cons hrefused hactive, hr.phase]
    cases c.phaseMark (holder h) <;> rfl
  · rw [hdeadline, deadlineMarked_cons hrefused hactive, hr.deadline]
  · rw [hteardown, hr.teardown]
    by_cases hrequest : c.requestsTeardown (holder h) = true
    · rw [stampedRequest_cons hrefused hactive hrequest]
      simp only [hrequest, true_and]
    · rw [stampedRequest_cons_of_not hrefused hactive (Bool.eq_false_iff.mpr hrequest)]
      exact if_neg fun h => hrequest h.1
  · rw [hconnecting, hr.connecting]
    by_cases hentry : c.entersNative (holder h) = true
    · rw [if_pos hentry, lastEntry_cons hrefused hactive hentry]
      rfl
    · rw [if_neg hentry, lastEntry_cons_of_not hrefused hactive (Bool.eq_false_iff.mpr hentry)]

/-- A call that is no mark of the holder and changes nothing. -/
theorem of_same (hr : Recorded h) (hrefused : ((registry h).call nowMs c).2 = none)
    (hsame : registry ((nowMs, c) :: h) = registry h)
    (hphase : c.phaseMark (holder h) = none) (hdeadline : c.expiresDeadline (holder h) = false)
    (hrequest : c.requestsTeardown (holder h) = false)
    (hentry : c.entersNative (holder h) = false) : Recorded ((nowMs, c) :: h) := by
  have hactive : holder ((nowMs, c) :: h) = holder h := congrArg Registry.activeAttemptId hsame
  apply hr.of_writes hrefused hactive
  · rw [hsame, hphase, Option.getD_none]
  · rw [hsame, hdeadline, Bool.false_or]
  · rw [hsame, hrequest, if_neg (by simp)]
  · rw [hsame, hentry, if_neg (by simp)]

/-- A mark of the holder. -/
theorem of_mark (hr : Recorded h) {lease : Option Lease}
    (hlease : lease.map Lease.attemptId = some (holder h)) (hc : c.lease = some lease)
    (hheld : holder ((nowMs, c) :: h) ≠ NO_ATTEMPT) : Recorded ((nowMs, c) :: h) := by
  have hreg : registry ((nowMs, c) :: h) = ((registry h).call nowMs c).1 := rfl
  cases c with
  | tryAcquire => cases hc
  | markNativeEntered l =>
    cases hc
    -- a new phase, and a new start of its bound
    rw [Registry.call_markNativeEntered, mutate_holder hlease] at hreg
    apply hr.of_writes rfl (by rw [holder, hreg]) <;> rw [hreg]
    · simp [Call.phaseMark, hlease]
    · rfl
    · exact (if_neg fun h => Bool.false_ne_true h.1).symm
    · exact (if_pos (decide_eq_true hlease)).symm
  | markConnected l =>
    cases hc
    -- a new phase, whatever was there before
    rw [Registry.call_markConnected, mutate_holder hlease] at hreg
    apply hr.of_writes rfl (by rw [holder, hreg]) <;> rw [hreg]
    · simp [Call.phaseMark, hlease]
    · rfl
    · exact (if_neg fun h => Bool.false_ne_true h.1).symm
    · exact (if_neg Bool.false_ne_true).symm
  | markTeardownRequested l =>
    cases hc
    -- a new phase; only the first request is stamped
    rw [Registry.call_markTeardownRequested, mutate_holder hlease] at hreg
    apply hr.of_writes rfl (by rw [holder, hreg]) <;> rw [hreg]
    · simp [Call.phaseMark, hlease]
    · rfl
    · have hrequest : (Call.markTeardownRequested lease).requestsTeardown (holder h) = true :=
        decide_eq_true hlease
      simp only [hrequest, true_and]
    · exact (if_neg Bool.false_ne_true).symm
  | markDeadlineExpired l =>
    cases hc
    -- the phase stays
    rw [Registry.call_markDeadlineExpired, mutate_holder hlease] at hreg
    apply hr.of_writes rfl (by rw [holder, hreg]) <;> rw [hreg]
    · rfl
    · simp [Call.expiresDeadline, hlease]
    · exact (if_neg fun h => Bool.false_ne_true h.1).symm
    · exact (if_neg Bool.false_ne_true).symm
  | confirmTeardown l =>
    cases hc
    -- the slot is given back, so there is no holder
    obtain ⟨k, rfl, hk⟩ := Option.map_eq_some_iff.mp hlease
    refine absurd ?_ hheld
    rw [holder, hreg]
    simp only [Registry.call, Registry.confirmTeardown]
    rw [if_neg (not_not.mpr hk)]
  | confirmTeardownWithoutLease => cases hc
  | forceReleaseStaleTeardown => cases hc

/-- A grant. -/
theorem of_grant (hlease : ((registry h).tryAcquire nowMs).2.1.isSome = true) :
    Recorded ((nowMs, .tryAcquire) :: h) := by
  obtain ⟨l, hl⟩ := Option.isSome_iff_exists.mp hlease
  have hsince : sinceGrant ((nowMs, .tryAcquire) :: h) = [] := sinceGrant_granted (l := l) hl
  -- what is granted has no marks
  have hfresh : ∀ (r : Registry) message, (r.acquireLocked message).2.1.isSome = true →
      (r.acquireLocked message).1.activePhase = .reserved ∧
        (r.acquireLocked message).1.deadlineExpired = false ∧
        (r.acquireLocked message).1.teardownRequestedAtMs = 0 ∧
        (r.acquireLocked message).1.connectingEnteredAtMs = 0 := by
    intro r message hgranted
    unfold Registry.acquireLocked at hgranted ⊢
    split_ifs at hgranted ⊢
    · exact absurd hgranted Bool.false_ne_true
    · exact ⟨rfl, rfl, rfl, rfl⟩
  have hfields : (registry ((nowMs, .tryAcquire) :: h)).activePhase = .reserved ∧
      (registry ((nowMs, .tryAcquire) :: h)).deadlineExpired = false ∧
      (registry ((nowMs, .tryAcquire) :: h)).teardownRequestedAtMs = 0 ∧
      (registry ((nowMs, .tryAcquire) :: h)).connectingEnteredAtMs = 0 := by
    show ((registry h).tryAcquire nowMs).1.activePhase = _ ∧
      ((registry h).tryAcquire nowMs).1.deadlineExpired = _ ∧
      ((registry h).tryAcquire nowMs).1.teardownRequestedAtMs = _ ∧
      ((registry h).tryAcquire nowMs).1.connectingEnteredAtMs = _
    unfold Registry.tryAcquire at hlease ⊢
    split_ifs at hlease ⊢
    · exact hfresh _ _ hlease
    · exact hfresh _ _ hlease
  obtain ⟨hphase, hdeadline, hteardown, hconnecting⟩ := hfields
  constructor
  · rw [hphase, lastMark, hsince]
    rfl
  · rw [hdeadline, deadlineMarked, hsince]
    rfl
  · rw [hteardown, stampedRequest, requests, hsince]
    rfl
  · rw [hconnecting, lastEntry, hsince]
    rfl

end Recorded

variable {h : History} {nowMs : ℤ}

/-- **The registry of a held slot.** -/
theorem recorded_of_held (hheld : holder h ≠ NO_ATTEMPT) : Recorded h := by
  induction h with
  | nil => exact absurd rfl hheld
  | cons e h ih =>
    obtain ⟨nowMs, c⟩ := e
    rcases call_effect nowMs c (registry h) with
      ⟨hactive, -, hrefused⟩ | ⟨-, hactive, -⟩ | ⟨rfl, -, hlease, -⟩
    · have hkept : holder ((nowMs, c) :: h) = holder h := hactive
      have hr := ih (hkept ▸ hheld)
      cases hc : c.lease with
      | some lease =>
        by_cases hown : lease.map Lease.attemptId = some (holder h)
        · exact hr.of_mark hown hc hheld
        · obtain ⟨hrequest, hentry⟩ := Call.not_of_lease_ne hc hown
          refine hr.of_same hrefused (call_inert hc hown) ?_ ?_ hrequest hentry
          · cases c <;> cases hc <;> simp [Call.phaseMark, hown]
          · cases c <;> cases hc <;> simp [Call.expiresDeadline, hown]
      | none =>
        cases c with
        | tryAcquire =>
          rcases (registry h).tryAcquire_cases nowMs with ⟨-, hsame, -⟩ | ⟨-, -, hlease⟩
          · exact hr.of_same hrefused hsame rfl rfl rfl rfl
          · exact absurd (hrefused.symm.trans hlease) (by simp)
        | confirmTeardownWithoutLease =>
          have hfree : registry ((nowMs, .confirmTeardownWithoutLease) :: h) =
              (registry h).confirmTeardownWithoutLease.1 := rfl
          unfold Registry.confirmTeardownWithoutLease at hfree
          rw [if_neg (fun hidle => hheld (hkept.trans hidle))] at hfree
          exact absurd (congrArg Registry.activeAttemptId hfree) hheld
        | forceReleaseStaleTeardown =>
          rcases (registry h).forceReleaseIfTimedOutLocked_cases nowMs with
            hkeep | ⟨-, hfree, -⟩
          · exact hr.of_same hrefused (congrArg Prod.fst hkeep) rfl rfl rfl rfl
          · exact absurd (congrArg Registry.activeAttemptId hfree) hheld
        | markNativeEntered l => cases hc
        | markConnected l => cases hc
        | markTeardownRequested l => cases hc
        | markDeadlineExpired l => cases hc
        | confirmTeardown l => cases hc
    · exact absurd hactive hheld
    · refine Recorded.of_grant ?_
      have hgranted : ((registry h).tryAcquire nowMs).2.1 =
          some ⟨(registry h).lastAttemptId + 1, Nat.succ_ne_zero _⟩ := hlease
      rw [hgranted]
      rfl

/-! ### Recovery -/

/-- The next `tryAcquire` is granted. -/
def Recovered (nowMs : ℤ) (h : History) : Prop :=
  ((registry h).tryAcquire nowMs).2.1.isSome = true

/-- The holder is in teardown for long: the wait for it was reported to be over, nothing was marked
    behind the teardown request, and the stamp is old enough. -/
def TeardownStands (nowMs : ℤ) (h : History) : Prop :=
  lastMark h = some .teardown ∧ deadlineMarked h = true ∧
    ∃ stamp ∈ stampedRequest h, NATIVE_SLOT_FORCE_RELEASE_AFTER_MS ≤ heldMs nowMs stamp

/-- The holder entered its native call after the teardown request, and that is long ago. -/
def EnteredLongAgo (nowMs : ℤ) (h : History) : Prop :=
  lastMark h = some .connecting ∧
    ∃ entered ∈ lastEntry h, entered ≠ 0 ∧
      NATIVE_SLOT_FORCE_RELEASE_CONNECTING_AFTER_MS ≤ heldMs nowMs entered

/-- A slot that one of the soft bounds may take is free after both were asked. -/
theorem forceReleaseLocked_frees {r : Registry}
    (h : r.StaleTeardown nowMs ∨ r.StuckConnecting nowMs) :
    (r.forceReleaseLocked nowMs).1.activeAttemptId = NO_ATTEMPT := by
  unfold Registry.forceReleaseLocked
  rcases h with ⟨hdeadline, hphase, hstamp, hbound⟩ | ⟨hphase, hentered, hbound⟩
  · unfold Registry.forceReleaseIfTimedOutLocked
    rw [if_neg (by simp [hdeadline]), if_neg (not_not.mpr hphase), if_neg hstamp,
      if_neg (not_lt.mpr hbound)]
    rfl
  · have hother : r.forceReleaseIfTimedOutLocked nowMs = (r, none) := by
      unfold Registry.forceReleaseIfTimedOutLocked
      rw [if_pos (show r.activePhase ≠ .teardown by simp [hphase]), ite_self]
    rw [hother]
    unfold Registry.forceReleaseIfConnectingStuckLocked
    dsimp only
    rw [if_neg (not_not.mpr hphase), if_neg hentered, if_neg (not_lt.mpr hbound)]
    rfl

/-- A held slot is granted when one of the soft bounds takes it. -/
theorem recovered_of_held (hheld : holder h ≠ NO_ATTEMPT) : Recovered nowMs h ↔
      (registry h).StaleTeardown nowMs ∨ (registry h).StuckConnecting nowMs := by
  unfold Recovered
  constructor
  · intro hgranted
    rcases (registry h).tryAcquire_cases nowMs with ⟨-, -, hnone⟩ | ⟨hwhy, -, -⟩
    · rw [hnone] at hgranted
      exact absurd hgranted Bool.false_ne_true
    · exact hwhy.resolve_left hheld
  · intro hbound
    have hgranted := (Registry.acquireLocked_idle (forceReleaseLocked_frees hbound)
      ((registry h).forceReleaseLocked nowMs).2).2
    rw [Registry.tryAcquire, if_pos hheld, hgranted]
    rfl

theorem staleTeardown_iff (hr : Recorded h) :
    (registry h).StaleTeardown nowMs ↔ TeardownStands nowMs h := by
  unfold Registry.StaleTeardown TeardownStands
  rw [hr.deadline, hr.phase, hr.teardown]
  constructor
  · rintro ⟨hdeadline, hphase, hstamp, hbound⟩
    cases hrequest : stampedRequest h with
    | none =>
      rw [hrequest] at hstamp
      exact absurd rfl hstamp
    | some stamp =>
      rw [hrequest] at hbound
      refine ⟨?_, hdeadline, stamp, rfl, hbound⟩
      cases hmark : lastMark h with
      | none => rw [hmark] at hphase; cases hphase
      | some phase => rw [hmark] at hphase; exact congrArg some hphase
  · rintro ⟨hmark, hdeadline, stamp, hrequest, hbound⟩
    have hne : stamp ≠ 0 := by simpa using List.find?_some hrequest
    rw [hmark, Option.mem_def.mp hrequest]
    exact ⟨hdeadline, rfl, hne, hbound⟩

theorem stuckConnecting_iff (hr : Recorded h) :
    (registry h).StuckConnecting nowMs ↔ EnteredLongAgo nowMs h := by
  unfold Registry.StuckConnecting EnteredLongAgo
  rw [hr.phase, hr.connecting]
  constructor
  · rintro ⟨hphase, hentered, hbound⟩
    cases hentry : lastEntry h with
    | none =>
      rw [hentry] at hentered
      exact absurd rfl hentered
    | some entered =>
      rw [hentry] at hentered hbound
      refine ⟨?_, entered, rfl, hentered, hbound⟩
      cases hmark : lastMark h with
      | none => rw [hmark] at hphase; cases hphase
      | some phase => rw [hmark] at hphase; exact congrArg some hphase
  · rintro ⟨hmark, entered, hentry, hne, hbound⟩
    rw [hmark, Option.mem_def.mp hentry]
    exact ⟨rfl, hne, hbound⟩

/-- The holder's teardown was requested 90 s ago for the first time. -/
def RequestedLongAgo (nowMs : ℤ) (h : History) : Prop :=
  ∃ first ∈ firstRequest h, NATIVE_SLOT_FORCE_RELEASE_AFTER_MS ≤ nowMs - first

theorem Call.ne_of_requestsTeardown {i : ℕ} {c : Call} (h : c.requestsTeardown i = true) :
    i ≠ NO_ATTEMPT := by
  cases c with
  | markTeardownRequested lease =>
    rw [Call.requestsTeardown, decide_eq_true_eq] at h
    obtain ⟨l, -, rfl⟩ := Option.map_eq_some_iff.mp h
    exact l.issued
  | tryAcquire => cases h
  | markNativeEntered l => cases h
  | markConnected l => cases h
  | markDeadlineExpired l => cases h
  | confirmTeardown l => cases h
  | confirmTeardownWithoutLease => cases h
  | forceReleaseStaleTeardown => cases h

/-- An attempt that was asked to tear down holds the slot. -/
theorem RequestedLongAgo.held (hlate : RequestedLongAgo nowMs h) : holder h ≠ NO_ATTEMPT := by
  obtain ⟨first, hfirst, -⟩ := hlate
  have hmem : first ∈ requests h := List.mem_of_getLast? hfirst
  obtain ⟨e, he, -⟩ := List.mem_map.mp hmem
  exact Call.ne_of_requestsTeardown (List.mem_filter.mp he).2

/-- **When the slot is recovered from an attempt whose teardown was requested 90 s ago**: the
    attempt stands in teardown, or it entered its native call behind the request and that is 30 s
    ago. -/
theorem slot_recovered_iff {nowMs : ℤ} {h : History} (hlate : RequestedLongAgo nowMs h) :
    Recovered nowMs h ↔ TeardownStands nowMs h ∨ EnteredLongAgo nowMs h := by
  have hr := recorded_of_held hlate.held
  rw [recovered_of_held hlate.held, staleTeardown_iff hr, stuckConnecting_iff hr]

/-- The first attempt. -/
def firstLease : Option Lease := some ⟨1, Nat.one_ne_zero⟩

/-- An attempt that was asked to tear down, twice, and reported to be blocked. -/
def blockedAttempt : History :=
  [(60000, .markTeardownRequested firstLease), (2500, .markDeadlineExpired firstLease),
    (2000, .markTeardownRequested firstLease), (1000, .markNativeEntered firstLease),
    (1000, .tryAcquire)]

/-- The second request does not restart the clock. -/
theorem slot_recovered_iff_blocked : Recovered 92000 blockedAttempt :=
  (slot_recovered_iff ⟨2000, by decide, by decide⟩).mpr
    (.inl ⟨by decide, by decide, 2000, by decide, by decide⟩)

/-- **A late mark postpones the release**: the connect of a blocked attempt returns, and its slot is
    never given to another one. -/
theorem late_mark_not_recovered : ¬ ∀ (nowMs : ℤ) (h : History), RequestedLongAgo nowMs h →
    Recovered nowMs h := by
  intro hall
  have hrecovered := hall 1000000 ((61000, .markConnected firstLease) :: blockedAttempt)
    ⟨2000, by decide, by decide⟩
  revert hrecovered
  unfold Recovered
  decide

end SoftEther.Native
