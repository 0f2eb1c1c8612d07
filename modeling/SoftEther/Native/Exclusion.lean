import Mathlib.Data.List.Pairwise
import SoftEther.Native.Registry

namespace SoftEther.Native

open Lib

/-!
# Mutual exclusion of native attempts

What the registry's fields say about the calls made so far, and what follows for whole
histories.

* `Granted`, `Lost`, `Unresolved` — the life of an attempt, read off the history;
* `TimedOut` — a soft bound counted from the calls themselves: from the first teardown
  request, from every entry into the native call;
* `Ledger`, `Stamped` — the two invariants of the registry against its history;
* `Exclusive` — mutual exclusion, with the calls `how` by which an attempt may end;
* `registry_exclusive` — every history has it once the release without a lease counts as one
  of these calls, and a history without such a release has it for own leases alone.
-/

/-! ### The life of an attempt -/

/-- The attempt `i` was granted in `h`. -/
def Granted : History → ℕ → Prop
  | [], _ => False
  | (nowMs, c) :: h, i =>
    (∃ l, ((registry h).call nowMs c).2 = some l ∧ l.attemptId = i) ∨ Granted h i

/-- The attempt `i` lost the slot in a call that meets `why`. -/
def Lost (why : ℤ → Call → History → ℕ → Prop) : History → ℕ → Prop
  | [], _ => False
  | (nowMs, c) :: h, i =>
    (holder h = i ∧ holder ((nowMs, c) :: h) ≠ i ∧ why nowMs c h i) ∨ Lost why h i

/-- The clock readings of the calls that meet `p`, the latest first. -/
def times (p : Call → Bool) (h : History) : List ℤ := (h.filter fun e => p e.2).map Prod.fst

/-- A teardown request under the lease of `i`. -/
def Call.requestsTeardown (i : ℕ) : Call → Bool
  | .markTeardownRequested lease => lease.map Lease.attemptId = some i
  | _ => false

/-- The entry of `i` into its native call. -/
def Call.entersNative (i : ℕ) : Call → Bool
  | .markNativeEntered lease => lease.map Lease.attemptId = some i
  | _ => false

/-- The attempt `i` is in `TEARDOWN` 90 s after its first teardown request, or in
    `CONNECTING` 30 s after it entered the native call. -/
def TimedOut (nowMs : ℤ) (h : History) (i : ℕ) : Prop :=
  ((registry h).activePhase = .teardown ∧
      ∃ first, (times (Call.requestsTeardown i) h).getLast? = some first ∧
        NATIVE_SLOT_FORCE_RELEASE_AFTER_MS ≤ nowMs - first) ∨
    ((registry h).activePhase = .connecting ∧ times (Call.entersNative i) h ≠ [] ∧
      ∀ entered ∈ times (Call.entersNative i) h,
        NATIVE_SLOT_FORCE_RELEASE_CONNECTING_AFTER_MS ≤ nowMs - entered)

/-- The attempt ended by a call of the kind `how`. -/
def Released (how : ℕ → Call → Prop) : History → ℕ → Prop := Lost fun _ c _ i => how i c

/-- A soft bound took the slot. -/
def Expelled : History → ℕ → Prop :=
  Lost fun nowMs c h i => (c = .tryAcquire ∨ c = .forceReleaseStaleTeardown) ∧ TimedOut nowMs h i

/-- Granted, and neither released nor expelled since. -/
def Unresolved (how : ℕ → Call → Prop) (h : History) (i : ℕ) : Prop :=
  Granted h i ∧ ¬ Released how h i ∧ ¬ Expelled h i

/-- **Mutual exclusion**, for the calls `how i` that may end the attempt `i`. -/
structure Exclusive (how : ℕ → Call → Prop) (h : History) : Prop where
  /-- One attempt at most is unresolved, and it holds the slot. -/
  one_unresolved : ∀ i j, Unresolved how h i → Unresolved how h j → i = j
  unresolved_holds : ∀ i, Unresolved how h i ↔ i ≠ NO_ATTEMPT ∧ holder h = i
  /-- A grant finds every earlier attempt released, expelled or timed out at that moment. -/
  grant : ∀ nowMs h' l, (nowMs, Call.tryAcquire) :: h' <:+ h →
    ((registry h').tryAcquire nowMs).2.1 = some l →
    ∀ i, Granted h' i → Released how h' i ∨ Expelled h' i ∨ holder h' = i ∧ TimedOut nowMs h' i
  /-- Obsolete leases and null do nothing. -/
  inert : ∀ nowMs c h' lease, (nowMs, c) :: h' <:+ h → c.lease = some lease →
    lease.map Lease.attemptId ≠ some (holder h') → registry ((nowMs, c) :: h') = registry h'
  /-- Ids increase. -/
  increasing : ∀ nowMs h' l, (nowMs, Call.tryAcquire) :: h' <:+ h →
    ((registry h').tryAcquire nowMs).2.1 = some l → ∀ i, Granted h' i → i < l.attemptId
  /-- `RESERVED` and `CONNECTED` holders are not displaced. -/
  kept : ∀ nowMs c h', (nowMs, c) :: h' <:+ h → holder h' ≠ NO_ATTEMPT →
    (registry h').activePhase = .reserved ∨ (registry h').activePhase = .connected →
    holder ((nowMs, c) :: h') = holder h' ∨ how (holder h') c

/-! ### Clock readings -/

variable {c : Call} {p : Call → Bool} {h : History} {nowMs : ℤ} {lease : Option Lease} {i : ℕ}
  {r : Registry}

theorem times_cons_pos (hp : p c = true) (nowMs : ℤ) (h : History) :
    times p ((nowMs, c) :: h) = nowMs :: times p h := by
  simp [times, hp]

theorem times_cons_neg (hp : p c = false) (nowMs : ℤ) (h : History) :
    times p ((nowMs, c) :: h) = times p h := by
  simp [times, hp]

theorem le_of_mem_times (hclock : ClockForward ((nowMs, c) :: h)) {t : ℤ} (ht : t ∈ times p h) :
    t ≤ nowMs := by
  unfold times at ht
  obtain ⟨e, he, rfl⟩ := List.mem_map.mp ht
  exact (List.pairwise_cons.mp hclock).1 e (List.mem_filter.mp he).1

theorem ClockForward.tail {e : ℤ × Call} (hclock : ClockForward (e :: h)) : ClockForward h :=
  (List.pairwise_cons.mp hclock).2

/-- The first reading of a kind of call is the earliest one. -/
theorem exists_first (hclock : ClockForward h) {t : ℤ} (ht : t ∈ times p h) :
    ∃ first, (times p h).getLast? = some first ∧ first ≤ t := by
  have hsorted : (times p h).Pairwise (· ≥ ·) := by
    unfold times
    rw [List.pairwise_map]
    exact hclock.filter _
  refine ⟨_, List.getLast?_eq_some_getLast (List.ne_nil_of_mem ht), ?_⟩
  exact hsorted.rel_getLast ht

theorem le_sub_of_le_heldMs {bound stamp : ℤ} (hbound : 0 ≤ bound) (hstamp : stamp ≤ nowMs)
    (h : bound ≤ heldMs nowMs stamp) : bound ≤ nowMs - stamp :=
  le_trans h (longSub_le hstamp (le_trans hbound h))

/-! ### The stamps -/

/-- The two stamps of the holder are readings of its own calls. -/
structure Stamped (h : History) : Prop where
  teardown : holder h ≠ NO_ATTEMPT → (registry h).teardownRequestedAtMs ≠ 0 →
    (registry h).teardownRequestedAtMs ∈ times (Call.requestsTeardown (holder h)) h
  connecting : holder h ≠ NO_ATTEMPT → (registry h).activePhase = .connecting →
    (registry h).connectingEnteredAtMs ∈ times (Call.entersNative (holder h)) h ∧
      ∀ t ∈ times (Call.entersNative (holder h)) h, t ≤ (registry h).connectingEnteredAtMs

theorem Registry.StaleTeardown.timedOut (hs : Stamped h) (hclock : ClockForward ((nowMs, c) :: h))
    (hheld : holder h ≠ NO_ATTEMPT) (hstale : (registry h).StaleTeardown nowMs) :
    TimedOut nowMs h (holder h) := by
  obtain ⟨_, hphase, hstamp, hbound⟩ := hstale
  have hmem := hs.teardown hheld hstamp
  obtain ⟨first, hfirst, hle⟩ := exists_first hclock.tail hmem
  refine .inl ⟨hphase, first, hfirst, ?_⟩
  -- The stamp may be later than the first request, when the clock read zero there.
  have hsince := le_sub_of_le_heldMs (by decide) (le_of_mem_times hclock hmem) hbound
  omega

theorem Registry.StuckConnecting.timedOut (hs : Stamped h) (hclock : ClockForward ((nowMs, c) :: h))
    (hheld : holder h ≠ NO_ATTEMPT) (hstuck : (registry h).StuckConnecting nowMs) :
    TimedOut nowMs h (holder h) := by
  obtain ⟨hphase, _, hbound⟩ := hstuck
  obtain ⟨hmem, hlast⟩ := hs.connecting hheld hphase
  refine .inr ⟨hphase, List.ne_nil_of_mem hmem, ?_⟩
  intro entered hentered
  have hsince := le_sub_of_le_heldMs (by decide) (le_of_mem_times hclock hmem) hbound
  have hle := hlast entered hentered
  omega

/-- An idle registry has no stamps to account for. -/
theorem Stamped.of_idle (hidle : holder h = NO_ATTEMPT) : Stamped h :=
  ⟨fun hheld => absurd hidle hheld, fun hheld => absurd hidle hheld⟩

/-- A call that leaves the registry as it was and makes no reading for its holder. -/
theorem Stamped.of_same (hs : Stamped h) (hsame : registry ((nowMs, c) :: h) = registry h)
    (hteardown : c.requestsTeardown (holder h) = false)
    (hentry : c.entersNative (holder h) = false) : Stamped ((nowMs, c) :: h) := by
  constructor
  · rw [holder, hsame, times_cons_neg hteardown]
    exact hs.teardown
  · rw [holder, hsame, times_cons_neg hentry]
    exact hs.connecting

/-- A lease that is not the holder's neither requests its teardown nor enters its call. -/
theorem Call.not_of_lease_ne (hc : c.lease = some lease)
    (hne : lease.map Lease.attemptId ≠ some i) :
    c.requestsTeardown i = false ∧ c.entersNative i = false := by
  cases c <;> cases hc <;>
    exact ⟨by simp [Call.requestsTeardown, hne], by simp [Call.entersNative, hne]⟩

/-- A change made under the holder's lease takes effect. -/
theorem mutate_holder (hlease : lease.map Lease.attemptId = some r.activeAttemptId)
    (change : Registry → Registry) : r.mutate lease change = change r := by
  rcases r.mutate_cases lease change with ⟨hne, _⟩ | ⟨_, h⟩
  · exact absurd hlease hne
  · exact h

/-- **Obsolete leases do nothing.** -/
theorem call_inert (hc : c.lease = some lease)
    (hne : lease.map Lease.attemptId ≠ some r.activeAttemptId) : (r.call nowMs c).1 = r := by
  have hmutate : ∀ change, r.mutate lease change = r := by
    intro change
    rcases r.mutate_cases lease change with ⟨_, h⟩ | ⟨h, _⟩
    · exact h
    · exact absurd h hne
  cases c with
  | tryAcquire => cases hc
  | markNativeEntered l => cases hc; rw [Registry.call_markNativeEntered, hmutate]
  | markConnected l => cases hc; rw [Registry.call_markConnected, hmutate]
  | markTeardownRequested l => cases hc; rw [Registry.call_markTeardownRequested, hmutate]
  | markDeadlineExpired l => cases hc; rw [Registry.call_markDeadlineExpired, hmutate]
  | confirmTeardown l =>
    cases hc
    simp only [Registry.call, Registry.confirmTeardown]
    split
    · rfl
    · rename_i l
      rw [if_pos (fun h => hne (congrArg some h))]
  | confirmTeardownWithoutLease => cases hc
  | forceReleaseStaleTeardown => cases hc

/-- The stamps survive a mark made by the holder. -/
theorem Stamped.of_mark (hs : Stamped h) (hclock : ClockForward ((nowMs, c) :: h))
    (hc : c.lease = some lease) (hlease : lease.map Lease.attemptId = some (holder h)) :
    Stamped ((nowMs, c) :: h) := by
  have hreg : registry ((nowMs, c) :: h) = ((registry h).call nowMs c).1 := rfl
  cases c with
  | tryAcquire => cases hc
  | markNativeEntered l =>
    cases hc
    rw [Registry.call_markNativeEntered, mutate_holder hlease] at hreg
    have hentry : (Call.markNativeEntered lease).entersNative (holder h) = true :=
      decide_eq_true hlease
    constructor
    · rw [holder, hreg, times_cons_neg rfl]
      exact hs.teardown
    · rw [holder, hreg, times_cons_pos hentry]
      intro _ _
      refine ⟨List.mem_cons_self, ?_⟩
      intro t ht
      -- The new stamp is the latest reading of all.
      rcases List.mem_cons.mp ht with rfl | ht
      · exact Int.le_refl _
      · exact le_of_mem_times hclock ht
  | markConnected l =>
    cases hc
    rw [Registry.call_markConnected, mutate_holder hlease] at hreg
    constructor
    · rw [holder, hreg, times_cons_neg rfl]
      exact hs.teardown
    · rw [holder, hreg]
      exact fun _ hphase => absurd hphase nofun
  | markTeardownRequested l =>
    cases hc
    rw [Registry.call_markTeardownRequested, mutate_holder hlease] at hreg
    have hrequest : (Call.markTeardownRequested lease).requestsTeardown (holder h) = true :=
      decide_eq_true hlease
    constructor
    · rw [holder, hreg, times_cons_pos hrequest]
      intro hheld hstamp
      dsimp only at hheld hstamp ⊢
      split_ifs with hzero
      · exact List.mem_cons_self
      · exact List.mem_cons_of_mem _ (hs.teardown hheld hzero)
    · rw [holder, hreg]
      exact fun _ hphase => absurd hphase nofun
  | markDeadlineExpired l =>
    cases hc
    rw [Registry.call_markDeadlineExpired, mutate_holder hlease] at hreg
    constructor
    · rw [holder, hreg, times_cons_neg rfl]
      exact hs.teardown
    · rw [holder, hreg, times_cons_neg rfl]
      exact hs.connecting
  | confirmTeardown l =>
    cases hc
    obtain ⟨k, rfl, hk⟩ := Option.map_eq_some_iff.mp hlease
    apply Stamped.of_idle
    rw [holder, hreg]
    simp only [Registry.call, Registry.confirmTeardown]
    rw [if_neg (not_not.mpr hk)]
  | confirmTeardownWithoutLease => cases hc
  | forceReleaseStaleTeardown => cases hc

/-- **Every call keeps the stamps.** -/
theorem Stamped.call (hs : Stamped h) (hclock : ClockForward ((nowMs, c) :: h)) :
    Stamped ((nowMs, c) :: h) := by
  cases hc : c.lease with
  | some lease =>
    by_cases hlease : lease.map Lease.attemptId = some (holder h)
    · exact hs.of_mark hclock hc hlease
    · obtain ⟨hteardown, hentry⟩ := Call.not_of_lease_ne hc hlease
      exact hs.of_same (call_inert hc hlease) hteardown hentry
  | none =>
    cases c with
    | tryAcquire =>
      rcases (registry h).tryAcquire_cases nowMs with ⟨_, hsame, _⟩ | ⟨_, hjust, _⟩
      · exact hs.of_same hsame rfl rfl
      · constructor
        · exact fun _ hstamp => absurd hjust.unstamped hstamp
        · exact fun _ hphase => absurd (hjust.phase.symm.trans hphase) nofun
    | confirmTeardownWithoutLease =>
      apply Stamped.of_idle
      show ((registry h).confirmTeardownWithoutLease.1).activeAttemptId = NO_ATTEMPT
      unfold Registry.confirmTeardownWithoutLease
      split_ifs with hidle
      · exact hidle
      · rfl
    | forceReleaseStaleTeardown =>
      rcases (registry h).forceReleaseIfTimedOutLocked_cases nowMs with hkeep | ⟨_, hfree, _⟩
      · refine hs.of_same ?_ rfl rfl
        exact congrArg Prod.fst hkeep
      · apply Stamped.of_idle
        exact congrArg Registry.activeAttemptId hfree
    | markNativeEntered l => exact absurd hc nofun
    | markConnected l => exact absurd hc nofun
    | markTeardownRequested l => exact absurd hc nofun
    | markDeadlineExpired l => exact absurd hc nofun
    | confirmTeardown l => exact absurd hc nofun

theorem stamped_of_clockForward (hclock : ClockForward h) : Stamped h := by
  induction h with
  | nil => exact Stamped.of_idle rfl
  | cons e h ih => exact (ih hclock.tail).call hclock

/-! ### The ledger -/

/-- Released or expelled. -/
def Ended (how : ℕ → Call → Prop) (h : History) (i : ℕ) : Prop := Released how h i ∨ Expelled h i

/-- The registry's two counters against the attempts of the history. -/
structure Ledger (how : ℕ → Call → Prop) (h : History) : Prop where
  granted_le : ∀ i, Granted h i → i ≠ NO_ATTEMPT ∧ i ≤ (registry h).lastAttemptId
  holder_granted : holder h ≠ NO_ATTEMPT → Granted h (holder h)
  ended_or_holder : ∀ i, Granted h i → i = holder h ∨ Ended how h i
  ended_le : ∀ i, Ended how h i → i ≤ (registry h).lastAttemptId
  ended_not_holder : ∀ i, Granted h i → Ended how h i → i ≠ holder h

variable {how : ℕ → Call → Prop}

/-- An attempt that ended stays ended. -/
theorem Ended.cons (hended : Ended how h i) (nowMs : ℤ) (c : Call) :
    Ended how ((nowMs, c) :: h) i :=
  hended.imp Or.inr Or.inr

/-- An attempt ends in a call only if it held the slot before and does not afterwards. -/
theorem Ended.of_cons (hended : Ended how ((nowMs, c) :: h) i) :
    Ended how h i ∨ holder h = i ∧ holder ((nowMs, c) :: h) ≠ i := by
  rcases hended with (⟨hheld, hlost, _⟩ | hbefore) | (⟨hheld, hlost, _⟩ | hbefore)
  · exact .inr ⟨hheld, hlost⟩
  · exact .inl (.inl hbefore)
  · exact .inr ⟨hheld, hlost⟩
  · exact .inl (.inr hbefore)

theorem granted_cons_of_refused (hrefused : ((registry h).call nowMs c).2 = none) :
    Granted ((nowMs, c) :: h) i ↔ Granted h i := by
  constructor
  · rintro (⟨l, hl, _⟩ | hbefore)
    · exact absurd (hrefused.symm.trans hl) nofun
    · exact hbefore
  · exact Or.inr

theorem granted_cons_of_lease {l : Lease} (hlease : ((registry h).call nowMs c).2 = some l) :
    Granted ((nowMs, c) :: h) i ↔ i = l.attemptId ∨ Granted h i := by
  constructor
  · rintro (⟨l', hl', rfl⟩ | hbefore)
    · exact .inl (congrArg Lease.attemptId (Option.some.inj (hl'.symm.trans hlease)))
    · exact .inr hbefore
  · rintro (rfl | hbefore)
    · exact .inl ⟨l, hlease, rfl⟩
    · exact .inr hbefore

theorem Ledger.holder_le (hL : Ledger how h) : holder h ≤ (registry h).lastAttemptId := by
  by_cases hheld : holder h = NO_ATTEMPT
  · rw [hheld]
    exact Nat.zero_le _
  · exact (hL.granted_le _ (hL.holder_granted hheld)).2

/-- Whatever a call ends had been granted before it. -/
theorem Ledger.ended_le_cons (hL : Ledger how h) (hended : Ended how ((nowMs, c) :: h) i) :
    i ≤ (registry h).lastAttemptId := by
  rcases hended.of_cons with hbefore | ⟨rfl, _⟩
  · exact hL.ended_le i hbefore
  · exact hL.holder_le

/-- A call after which the slot is where it was. -/
theorem Ledger.kept (hL : Ledger how h) (hactive : holder ((nowMs, c) :: h) = holder h)
    (hlast : (registry ((nowMs, c) :: h)).lastAttemptId = (registry h).lastAttemptId)
    (hrefused : ((registry h).call nowMs c).2 = none) : Ledger how ((nowMs, c) :: h) := by
  constructor
  · intro i hi
    rw [hlast]
    exact hL.granted_le i ((granted_cons_of_refused hrefused).mp hi)
  · intro hheld
    rw [hactive] at hheld ⊢
    exact .inr (hL.holder_granted hheld)
  · intro i hi
    rw [hactive]
    exact (hL.ended_or_holder i ((granted_cons_of_refused hrefused).mp hi)).imp_right
      fun hended => hended.cons nowMs c
  · intro i hended
    rw [hlast]
    exact hL.ended_le_cons hended
  · intro i hi hended
    rcases hended.of_cons with hbefore | ⟨hheld, hlost⟩
    · rw [hactive]
      exact hL.ended_not_holder i ((granted_cons_of_refused hrefused).mp hi) hbefore
    · exact absurd (hactive.trans hheld) hlost

/-- A call that ends the holder and leaves the slot idle. -/
theorem Ledger.freed (hL : Ledger how h) (hactive : holder ((nowMs, c) :: h) = NO_ATTEMPT)
    (hlast : (registry ((nowMs, c) :: h)).lastAttemptId = (registry h).lastAttemptId)
    (hrefused : ((registry h).call nowMs c).2 = none)
    (hended : Ended how ((nowMs, c) :: h) (holder h)) : Ledger how ((nowMs, c) :: h) := by
  constructor
  · intro i hi
    rw [hlast]
    exact hL.granted_le i ((granted_cons_of_refused hrefused).mp hi)
  · exact fun hheld => absurd hactive hheld
  · intro i hi
    right
    rcases hL.ended_or_holder i ((granted_cons_of_refused hrefused).mp hi) with rfl | hbefore
    · exact hended
    · exact hbefore.cons nowMs c
  · intro i hend
    rw [hlast]
    exact hL.ended_le_cons hend
  · intro i hi _
    rw [hactive]
    exact (hL.granted_le i ((granted_cons_of_refused hrefused).mp hi)).1

/-- A call that ends the holder, if there is one, and grants the next id. -/
theorem Ledger.granted (hL : Ledger how h)
    (hjust : (registry h).JustGranted (registry ((nowMs, c) :: h)))
    (hlease : ((registry h).call nowMs c).2 =
      some ⟨(registry h).lastAttemptId + 1, Nat.succ_ne_zero _⟩)
    (hended : holder h ≠ NO_ATTEMPT → Ended how ((nowMs, c) :: h) (holder h)) :
    Ledger how ((nowMs, c) :: h) := by
  have hgranted := fun i => granted_cons_of_lease (i := i) hlease
  have hactive : holder ((nowMs, c) :: h) = (registry h).lastAttemptId + 1 := hjust.active
  constructor
  · intro i hi
    rw [hjust.last]
    rcases (hgranted i).mp hi with rfl | hbefore
    · exact ⟨Nat.succ_ne_zero _, le_refl _⟩
    · obtain ⟨hne, hle⟩ := hL.granted_le i hbefore
      exact ⟨hne, by omega⟩
  · intro _
    exact (hgranted _).mpr (.inl hactive)
  · intro i hi
    rcases (hgranted i).mp hi with rfl | hbefore
    · exact .inl hactive.symm
    · right
      rcases hL.ended_or_holder i hbefore with rfl | hold
      · exact hended (hL.granted_le _ hbefore).1
      · exact hold.cons nowMs c
  · intro i hend
    rw [hjust.last]
    exact Nat.le_succ_of_le (hL.ended_le_cons hend)
  · -- What has ended by now is older than the id just granted.
    intro i _ hend
    have hle := hL.ended_le_cons hend
    rw [hactive]
    omega

/-- **Every call keeps the ledger**, when `how` names every way of giving the slot back that
    the call may be. -/
theorem Ledger.call (hL : Ledger how h) (hs : Stamped h) (hclock : ClockForward ((nowMs, c) :: h))
    (hown : ∀ i, OwnConfirm i c → how i c)
    (hless : c = .confirmTeardownWithoutLease → ∀ i, how i c) : Ledger how ((nowMs, c) :: h) := by
  have hexpel : holder h ≠ NO_ATTEMPT → holder ((nowMs, c) :: h) ≠ holder h →
      (c = .tryAcquire ∨ c = .forceReleaseStaleTeardown) → TimedOut nowMs h (holder h) →
      Ended how ((nowMs, c) :: h) (holder h) :=
    fun _ hlost hc hout => .inr (.inl ⟨rfl, hlost, hc, hout⟩)
  rcases call_effect nowMs c (registry h) with
    ⟨hactive, hlast, hrefused⟩ | ⟨hheld, hactive, hlast, hrefused, hwhy⟩ |
    ⟨hc, hjust, hlease, hwhy⟩
  · exact hL.kept hactive hlast hrefused
  · have hlost : holder ((nowMs, c) :: h) ≠ holder h := by
      intro hsame
      exact hheld (hsame.symm.trans hactive)
    refine hL.freed hactive hlast hrefused ?_
    rcases hwhy with hconfirm | hleaseless | ⟨hc, hstale⟩
    · exact .inl (.inl ⟨rfl, hlost, hown _ hconfirm⟩)
    · exact .inl (.inl ⟨rfl, hlost, hless hleaseless _⟩)
    · exact hexpel hheld hlost (.inr hc) (hstale.timedOut hs hclock hheld)
  · refine hL.granted hjust hlease ?_
    intro hheld
    have hlost : holder ((nowMs, c) :: h) ≠ holder h := by
      have hle := hL.holder_le
      have hactive : holder ((nowMs, c) :: h) = (registry h).lastAttemptId + 1 := hjust.active
      omega
    apply hexpel hheld hlost (.inl hc)
    rcases hwhy with hidle | hstale | hstuck
    · exact absurd hidle hheld
    · exact hstale.timedOut hs hclock hheld
    · exact hstuck.timedOut hs hclock hheld

theorem ledger_nil : Ledger how [] :=
  ⟨nofun, fun hheld => absurd rfl hheld, nofun, by rintro i (h | h) <;> exact absurd h nofun, nofun⟩

/-- **The ledger of a whole history.** -/
theorem ledger_of_clockForward (hclock : ClockForward h)
    (hown : ∀ e ∈ h, ∀ i, OwnConfirm i e.2 → how i e.2)
    (hless : ∀ e ∈ h, e.2 = .confirmTeardownWithoutLease → ∀ i, how i e.2) : Ledger how h := by
  induction h with
  | nil => exact ledger_nil
  | cons e h ih =>
    have hL := ih hclock.tail (fun e he => hown e (List.mem_cons_of_mem _ he))
      (fun e he => hless e (List.mem_cons_of_mem _ he))
    exact hL.call (stamped_of_clockForward hclock.tail) hclock (hown e List.mem_cons_self)
      (hless e List.mem_cons_self)

/-! ### Mutual exclusion -/

/-- What holds along a history holds for the part of it before any call. -/
theorem ClockForward.of_suffix {h' : History} (hclock : ClockForward h) (hsuffix : h' <:+ h) :
    ClockForward h' :=
  hclock.sublist hsuffix.sublist

theorem Ledger.unresolved_iff (hL : Ledger how h) (i : ℕ) :
    Unresolved how h i ↔ i ≠ NO_ATTEMPT ∧ holder h = i := by
  constructor
  · rintro ⟨hgranted, hreleased, hexpelled⟩
    refine ⟨(hL.granted_le i hgranted).1, ?_⟩
    rcases hL.ended_or_holder i hgranted with hheld | hended
    · exact hheld.symm
    · exact absurd hended (not_or.mpr ⟨hreleased, hexpelled⟩)
  · rintro ⟨hne, rfl⟩
    have hgranted := hL.holder_granted hne
    have hlive : ¬ Ended how h (holder h) := fun hended => hL.ended_not_holder _ hgranted hended rfl
    exact ⟨hgranted, not_or.mp hlive⟩

/-- A grant finds the slot idle or its holder timed out. -/
theorem grant_cases {l : Lease} (hclock : ClockForward ((nowMs, .tryAcquire) :: h))
    (hl : ((registry h).tryAcquire nowMs).2.1 = some l) :
    l.attemptId = (registry h).lastAttemptId + 1 ∧
      (holder h = NO_ATTEMPT ∨ TimedOut nowMs h (holder h)) := by
  have hs := stamped_of_clockForward hclock.tail
  rcases (registry h).tryAcquire_cases nowMs with ⟨_, _, hnone⟩ | ⟨hwhy, _, hsome⟩
  · exact absurd (hnone.symm.trans hl) nofun
  · have hid : l.attemptId = (registry h).lastAttemptId + 1 :=
      congrArg Lease.attemptId (Option.some.inj (hl.symm.trans hsome))
    refine ⟨hid, ?_⟩
    by_cases hheld : holder h = NO_ATTEMPT
    · exact .inl hheld
    · right
      rcases hwhy with hidle | hstale | hstuck
      · exact absurd hidle hheld
      · exact hstale.timedOut hs hclock hheld
      · exact hstuck.timedOut hs hclock hheld

/-- A holder in `RESERVED` or `CONNECTED` goes only when it is released. -/
theorem holder_kept (hheld : r.activeAttemptId ≠ NO_ATTEMPT)
    (hphase : r.activePhase = .reserved ∨ r.activePhase = .connected) :
    (r.call nowMs c).1.activeAttemptId = r.activeAttemptId ∨
      OwnConfirm r.activeAttemptId c ∨ c = .confirmTeardownWithoutLease := by
  -- Neither soft bound looks at these two phases.
  have hstale : ¬ r.StaleTeardown nowMs := by
    rintro ⟨_, hteardown, _⟩
    rw [hteardown] at hphase
    exact hphase.elim nofun nofun
  have hstuck : ¬ r.StuckConnecting nowMs := by
    rintro ⟨hconnecting, _⟩
    rw [hconnecting] at hphase
    exact hphase.elim nofun nofun
  rcases call_effect nowMs c r with
    ⟨hactive, _, _⟩ | ⟨_, _, _, _, hwhy⟩ | ⟨_, _, _, hwhy⟩
  · exact .inl hactive
  · rcases hwhy with hconfirm | hleaseless | ⟨_, h⟩
    · exact .inr (.inl hconfirm)
    · exact .inr (.inr hleaseless)
    · exact absurd h hstale
  · rcases hwhy with hidle | h | h
    · exact absurd hidle hheld
    · exact absurd h hstale
    · exact absurd h hstuck

/-- Mutual exclusion, when `how` names the releases that the history contains. -/
theorem exclusive_of_clockForward (hclock : ClockForward h)
    (hown : ∀ e ∈ h, ∀ i, OwnConfirm i e.2 → how i e.2)
    (hless : ∀ e ∈ h, e.2 = .confirmTeardownWithoutLease → ∀ i, how i e.2) : Exclusive how h := by
  have hledger : ∀ h', h' <:+ h → Ledger how h' := by
    intro h' hsuffix
    exact ledger_of_clockForward (hclock.of_suffix hsuffix) (fun e he => hown e (hsuffix.mem he))
      (fun e he => hless e (hsuffix.mem he))
  have hL := hledger h (List.suffix_refl h)
  constructor
  · intro i j hi hj
    rw [← ((hL.unresolved_iff i).mp hi).2, ← ((hL.unresolved_iff j).mp hj).2]
  · exact hL.unresolved_iff
  · intro nowMs h' l hsuffix hl i hi
    have hL' := hledger h' ((List.suffix_cons _ _).trans hsuffix)
    rcases hL'.ended_or_holder i hi with rfl | hended
    · rcases (grant_cases (hclock.of_suffix hsuffix) hl).2 with hidle | hout
      · exact absurd hidle (hL'.granted_le _ hi).1
      · exact .inr (.inr ⟨rfl, hout⟩)
    · exact hended.imp_right Or.inl
  · intro nowMs c h' lease _ hc hne
    exact call_inert hc hne
  · intro nowMs h' l hsuffix hl i hi
    have hL' := hledger h' ((List.suffix_cons _ _).trans hsuffix)
    rw [(grant_cases (hclock.of_suffix hsuffix) hl).1]
    exact Nat.lt_succ_of_le (hL'.granted_le i hi).2
  · intro nowMs c h' hsuffix hheld hphase
    have hmem : (nowMs, c) ∈ h := hsuffix.mem List.mem_cons_self
    exact (holder_kept hheld hphase).imp_right fun hreleased =>
      hreleased.elim (hown _ hmem _) (fun hc => hless _ hmem hc _)

/-- **The native slot is exclusive.** An attempt ends by the confirmation of its own lease, by
    the release that takes no lease, or by a soft bound; without the release that takes no
    lease, only by its own lease or a soft bound. -/
theorem registry_exclusive (h : History) (hclock : ClockForward h) :
    Exclusive (fun i c => OwnConfirm i c ∨ c = .confirmTeardownWithoutLease) h ∧
      ((∀ e ∈ h, e.2 ≠ .confirmTeardownWithoutLease) → Exclusive OwnConfirm h) := by
  constructor
  · exact exclusive_of_clockForward hclock (fun _ _ _ => Or.inl) (fun _ _ hc _ => .inr hc)
  · intro hnone
    exact exclusive_of_clockForward hclock (fun _ _ _ => id)
      (fun e he hc => absurd hc (hnone e he))

/-- An attempt that enters its native call and is thrown out 30 s later by the next one. -/
theorem registry_exclusive_stuck :
    ClockForward [(31000, .tryAcquire), (1000, .markNativeEntered (some ⟨1, by decide⟩)),
        (1000, .tryAcquire)] ∧
      Exclusive OwnConfirm [(31000, .tryAcquire),
        (1000, .markNativeEntered (some ⟨1, by decide⟩)), (1000, .tryAcquire)] := by
  have hclock : ClockForward [(31000, .tryAcquire),
      (1000, .markNativeEntered (some ⟨1, by decide⟩)), (1000, .tryAcquire)] := by
    unfold ClockForward
    decide
  exact ⟨hclock, (registry_exclusive _ hclock).2 (by decide)⟩

/-- The release without a lease takes the slot from a `RESERVED` holder. -/
theorem registry_exclusive_fails :
    ¬ ∀ h : History, ClockForward h → Exclusive OwnConfirm h := by
  intro hall
  have hclock : ClockForward [(1, .confirmTeardownWithoutLease), (0, .tryAcquire)] := by
    unfold ClockForward
    decide
  have hkept := (hall _ hclock).kept 1 .confirmTeardownWithoutLease [(0, .tryAcquire)]
    (List.suffix_refl _) (by decide) (by decide)
  rcases hkept with hsame | ⟨_, hc, _⟩
  · exact absurd hsame (by decide)
  · exact absurd hc nofun

end SoftEther.Native
