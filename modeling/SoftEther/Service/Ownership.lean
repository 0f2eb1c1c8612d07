import SoftEther.Service.VpnService

namespace SoftEther.Service

open Lib SoftEther.Native
open SoftEther.Controller (ConnectionState)

/-!
# What the service owns

A session owns its controller, its connect job, the TUN descriptor and, until the controller takes
it over, a lease of the native slot. `startVpn` asks the service's own fields, and the fields are
cleared by `stopVpn`, by a cancelled coroutine and by the abandonment of a wedged attempt.

* `Tun.KeptBy` — the TUN coordinator works for one session only;
* `acquireNativeSlotOrRecover_cases` — when the service gets the native slot;
* `Owned` — what holds between two actions, and `Owned.step`;
* `NoOrphan`, `no_session_orphaned` — what follows in every run.
-/

/-! ### The TUN of one session -/

namespace Tun

variable {T : Type*} {c : Tun T} {session : Int}

/-- Only `session` may install, and what is held is its own. -/
structure KeptBy (session : Int) (c : Tun T) : Prop where
  installer : c.installer = NO_SESSION ∨ c.installer = session
  held : c.isHeld = true → c.descriptorOwner = session

theorem KeptBy.discarded (session : Int) (c : Tun T) : KeptBy session c.discardLocked where
  installer := Or.inl rfl
  held := by simp [isHeld]

theorem KeptBy.invalidate (h : KeptBy session c) (other : Int) :
    KeptBy session (c.invalidate other) := by
  refine ⟨?_, h.held⟩
  dsimp only [Tun.invalidate]
  split_ifs
  · exact Or.inl rfl
  · exact h.installer

theorem KeptBy.release (h : KeptBy session c) (other : Int) :
    KeptBy session (c.release other).1 := by
  rw [Tun.release]
  split_ifs
  · exact h
  · exact KeptBy.discarded session c

/-- **The session that keeps the TUN can always release it.** -/
theorem KeptBy.release_isHeld (h : KeptBy session c) : (c.release session).1.isHeld = false := by
  rw [Tun.release]
  split_ifs with hother
  · -- a release that is refused had nothing to close
    by_contra hheld
    exact hother (h.held (eq_true_of_ne_false hheld)).symm
  · simp [isHeld]

/-- A claim hands the TUN over, whoever kept it. -/
theorem KeptBy.claim (c : Tun T) (hreal : session ≠ NO_SESSION) :
    KeptBy session ((c.claim session).getD c) := by
  rw [Tun.claim, if_neg hreal]
  exact ⟨Or.inr rfl, fun _ => rfl⟩

/-- An establishment runs for the session that may install, or not at all. -/
theorem KeptBy.install (h : KeptBy session c) {other : Int} {c' : Tun T}
    (henter : c.installEnter other = some c') (answer : Establish T) :
    KeptBy session (c'.installLeave other answer).1 := by
  rw [installEnter] at henter
  split_ifs at henter with hrefused
  obtain ⟨hreal, hsame⟩ := not_or.mp hrefused
  obtain rfl : other = session := by
    rcases h.installer with hzero | hcurrent
    · exact absurd ((not_not.mp hsame).trans hzero) hreal
    · exact (not_not.mp hsame).trans hcurrent
  obtain rfl := Option.some.inj henter
  cases answer with
  | created t => exact ⟨h.installer, fun _ => rfl⟩
  | declined => exact ⟨h.installer, by rintro ⟨⟩⟩
  | threw => exact ⟨h.installer, by rintro ⟨⟩⟩

end Tun

/-! ### The native slot -/

/-- A holder that is reserved meets neither soft bound. -/
theorem not_overdue_of_reserved {r : Registry} (h : r.activePhase = .reserved) (nowMs : ℤ) :
    ¬ r.StaleTeardown nowMs ∧ ¬ r.StuckConnecting nowMs := by
  refine ⟨fun hstale => ?_, fun hstuck => ?_⟩
  · exact absurd (h.symm.trans hstale.2.1) (by simp)
  · exact absurd (h.symm.trans hstuck.1) (by simp)

/-- **When the service gets the slot.** It is refused and leaves the slot as it is or frees a stale
    one; or the slot was free or overdue, and it gets the next lease. -/
theorem acquireNativeSlotOrRecover_cases (nowMs : ℤ) (r : Registry) :
    ((acquireNativeSlotOrRecover nowMs r).2 = none ∧
        ((acquireNativeSlotOrRecover nowMs r).1 = r ∨ r.StaleTeardown nowMs) ∧
        (acquireNativeSlotOrRecover nowMs r).1.lastAttemptId = r.lastAttemptId) ∨
      ((r.activeAttemptId = NO_ATTEMPT ∨ r.StaleTeardown nowMs ∨ r.StuckConnecting nowMs) ∧
        r.JustGranted (acquireNativeSlotOrRecover nowMs r).1 ∧
        (acquireNativeSlotOrRecover nowMs r).2 =
          some ⟨r.lastAttemptId + 1, Nat.succ_ne_zero _⟩) := by
  rw [acquireNativeSlotOrRecover]
  rcases r.tryAcquire_cases nowMs with ⟨-, hreg, hlease⟩ | ⟨hfree, hjust, hlease⟩
  · have htry : r.tryAcquire nowMs = (r, none, (r.tryAcquire nowMs).2.2) := by
      rw [← hlease]
      exact Prod.ext hreg rfl
    rw [htry]
    dsimp only [Registry.forceReleaseStaleTeardown]
    rcases r.forceReleaseIfTimedOutLocked_cases nowMs with hkeep | ⟨hstale, hfst, hsome⟩
    · rw [hkeep]
      exact Or.inl ⟨rfl, Or.inl rfl, rfl⟩
    · -- the slot is free now, so the second try gets it
      rw [hfst, hsome]
      rcases (r.forceRelease .forcedReleaseAfterTimeout).tryAcquire_cases nowMs with
        ⟨hheld, -⟩ | ⟨-, hjust, hagain⟩
      · exact absurd rfl hheld
      · exact Or.inr ⟨Or.inr (Or.inl hstale),
          ⟨hjust.last, hjust.active, hjust.phase, hjust.unstamped⟩, hagain⟩
  · have htry : r.tryAcquire nowMs = ((r.tryAcquire nowMs).1,
        some ⟨r.lastAttemptId + 1, Nat.succ_ne_zero _⟩, (r.tryAcquire nowMs).2.2) := by
      rw [← hlease]
    rw [htry]
    exact Or.inr ⟨hfree, hjust, rfl⟩

/-- A call under a lease that does not hold the slot changes nothing. -/
theorem call_of_other {r : Registry} {lease : Lease} (hother : lease.attemptId ≠ r.activeAttemptId)
    {call : Call} (hcall : call.lease = some (some lease)) (nowMs : ℤ) :
    (r.call nowMs call).1 = r := by
  have hmark : ∀ change, r.mutate (some lease) change = r := fun change => if_pos hother
  cases call with
  | tryAcquire => simp [Call.lease] at hcall
  | confirmTeardownWithoutLease => simp [Call.lease] at hcall
  | forceReleaseStaleTeardown => simp [Call.lease] at hcall
  | confirmTeardown lease' =>
    obtain rfl : lease' = some lease := by simpa [Call.lease] using hcall
    simp [Registry.call, Registry.confirmTeardown, hother]
  | markNativeEntered lease' | markConnected lease' | markTeardownRequested lease'
  | markDeadlineExpired lease' =>
    obtain rfl : lease' = some lease := by simpa [Call.lease] using hcall
    apply hmark

/-- A call under a lease grants none. -/
theorem call_lastAttemptId {call : Call} {lease : Option Lease} (hcall : call.lease = some lease)
    (nowMs : ℤ) (r : Registry) : (r.call nowMs call).1.lastAttemptId = r.lastAttemptId := by
  rcases call_effect nowMs call r with ⟨_, hlast, _⟩ | ⟨_, _, hlast, _, _⟩ | ⟨hacquire, _, _, _⟩
  · exact hlast
  · exact hlast
  · rw [hacquire] at hcall
    simp [Call.lease] at hcall

namespace VpnService

variable {T : Type*} {s s' : VpnService T} {a : Attempt}

/-! ### The invariant -/

/-- A coroutine that has not built its controller holds the slot under its own lease, for the
    current session, and no controller is in its way. -/
structure Reserved (s : VpnService T) (a : Attempt) : Prop where
  session : a.session = s.policy.sessionGeneration
  active : s.registry.activeAttemptId = a.lease.attemptId
  phase : s.registry.activePhase = .reserved
  last : a.lease.attemptId ≤ s.registry.lastAttemptId
  fresh : ∀ b ∈ s.created, b.lease.attemptId ≠ a.lease.attemptId ∧ b.session ≠ a.session
  idle : s.controller = none

/-- **What holds between two actions.** -/
structure Owned (s : VpnService T) : Prop where
  generation : 0 ≤ s.policy.sessionGeneration
  launching : s.launching = [] ∨ ∃ a, s.launching = [a] ∧ s.Reserved a
  issued : ∀ a ∈ s.created, a.lease.attemptId ≤ s.registry.lastAttemptId ∧
    a.session ≤ s.policy.sessionGeneration
  distinct : (s.created.map Attempt.session).Nodup
  held : ∀ a ∈ s.created, s.controller = some a.session ∨ a.session ∈ s.destroyRequested ∨
    a.session ∈ s.abandoned
  jobsDistinct : s.jobs.Nodup
  jobs : ∀ j ∈ s.jobs, j ≤ s.policy.sessionGeneration ∧
    (j ∈ s.cancelled ∨ s.connectionJob = some j)
  tun : Tun.KeptBy s.policy.sessionGeneration s.tunOwnership

theorem owned_new : (new : VpnService T).Owned where
  generation := le_refl _
  launching := Or.inl rfl
  issued := nofun
  distinct := List.nodup_nil
  held := nofun
  jobsDistinct := List.nodup_nil
  jobs := nofun
  tun := ⟨Or.inl rfl, nofun⟩

/-- The fields that ownership reads are the same, the TUN apart. -/
structure SameOwner (s s' : VpnService T) : Prop where
  generation : s'.policy.sessionGeneration = s.policy.sessionGeneration
  registry : s'.registry = s.registry
  controller : s'.controller = s.controller
  connectionJob : s'.connectionJob = s.connectionJob
  launching : s'.launching = s.launching
  jobs : s'.jobs = s.jobs
  cancelled : s'.cancelled = s.cancelled
  created : s'.created = s.created
  destroyRequested : s'.destroyRequested = s.destroyRequested
  abandoned : s'.abandoned = s.abandoned

theorem Reserved.of_same (h : s.Reserved a) (hv : SameOwner s s') : s'.Reserved a where
  session := by rw [hv.generation, h.session]
  active := by rw [hv.registry, h.active]
  phase := by rw [hv.registry, h.phase]
  last := by rw [hv.registry]; exact h.last
  fresh := by rw [hv.created]; exact h.fresh
  idle := by rw [hv.controller, h.idle]

theorem Owned.of_same (h : s.Owned) (hv : SameOwner s s')
    (htun : Tun.KeptBy s.policy.sessionGeneration s'.tunOwnership) : s'.Owned where
  generation := by rw [hv.generation]; exact h.generation
  launching := by
    rw [hv.launching]
    rcases h.launching with hnone | ⟨a, hone, hreserved⟩
    · exact Or.inl hnone
    · exact Or.inr ⟨a, hone, hreserved.of_same hv⟩
  issued := by rw [hv.created, hv.registry, hv.generation]; exact h.issued
  distinct := by rw [hv.created]; exact h.distinct
  held := by
    rw [hv.created, hv.controller, hv.destroyRequested, hv.abandoned]
    exact h.held
  jobsDistinct := by rw [hv.jobs]; exact h.jobsDistinct
  jobs := by rw [hv.jobs, hv.generation, hv.cancelled, hv.connectionJob]; exact h.jobs
  tun := by rw [hv.generation]; exact htun

/-! ### Each action keeps the invariant -/

/-- The coroutine that launches keeps its slot, so a start that comes too early is refused. -/
theorem Owned.acquire_refused (h : s.Owned) (hlaunching : s.launching ≠ []) (nowMs : ℤ) :
    acquireNativeSlotOrRecover nowMs s.registry = (s.registry, none) := by
  obtain ⟨a, -, hreserved⟩ := h.launching.resolve_left hlaunching
  obtain ⟨hstale, hstuck⟩ := not_overdue_of_reserved hreserved.phase nowMs
  rcases acquireNativeSlotOrRecover_cases nowMs s.registry with ⟨hnone, hkept, -⟩ | ⟨hfree, -, -⟩
  · exact Prod.ext (hkept.resolve_right hstale) hnone
  · rcases hfree with hidle | hover | hover
    · exact absurd (hreserved.active.symm.trans hidle) a.lease.issued
    · exact absurd hover hstale
    · exact absurd hover hstuck

/-- A start that is accepted finds no controller and no job; its session is a new one. -/
theorem Owned.startSession (h : s.Owned) (hcontroller : s.controller = none)
    (hjob : s.connectionJob = none) {registry : Registry}
    (hjust : s.registry.JustGranted registry) {lease : Lease}
    (hlease : lease.attemptId = s.registry.lastAttemptId + 1) (hlaunching : s.launching = []) :
    (s.startSession registry lease).Owned := by
  have hgeneration := h.generation
  have hlast := hjust.last
  refine ⟨?_, Or.inr ⟨⟨s.policy.sessionGeneration + 1, lease⟩, ?_, ?_⟩, ?_, h.distinct, h.held,
    ?_, ?_, Tun.KeptBy.claim _ ?_⟩
  · show 0 ≤ s.policy.sessionGeneration + 1
    omega
  · show ⟨s.policy.sessionGeneration + 1, lease⟩ :: s.launching = _
    rw [hlaunching]
  · refine ⟨rfl, ?_, hjust.phase, ?_, ?_, hcontroller⟩
    · show registry.activeAttemptId = lease.attemptId
      rw [hjust.active, hlease]
    · show lease.attemptId ≤ registry.lastAttemptId
      omega
    · intro b hb
      obtain ⟨hold, hearlier⟩ := h.issued b hb
      constructor
      · show b.lease.attemptId ≠ lease.attemptId
        omega
      · show b.session ≠ s.policy.sessionGeneration + 1
        omega
  · intro b hb
    obtain ⟨hold, hearlier⟩ := h.issued b hb
    constructor
    · show b.lease.attemptId ≤ registry.lastAttemptId
      omega
    · show b.session ≤ s.policy.sessionGeneration + 1
      omega
  · refine List.nodup_cons.mpr ⟨fun hold => ?_, h.jobsDistinct⟩
    have hbound := (h.jobs _ hold).1
    simp at hbound
  · intro j hj
    rcases List.mem_cons.mp hj with rfl | hold
    · exact ⟨le_refl _, Or.inr rfl⟩
    · obtain ⟨hbound, hdone⟩ := h.jobs j hold
      refine ⟨?_, Or.inl (hdone.resolve_right ?_)⟩
      · show j ≤ s.policy.sessionGeneration + 1
        omega
      · rw [hjob]
        simp
  · show s.policy.sessionGeneration + 1 ≠ 0
    omega

/-- **What takes a session's fields leaves nothing behind**: the job is cancelled, and the
    controller is recorded. -/
theorem Owned.cleared (h : s.Owned) {s' : VpnService T}
    (hgeneration : s'.policy.sessionGeneration = s.policy.sessionGeneration)
    (hregistry : s'.registry = s.registry) (hlaunching : s'.launching = s.launching)
    (hcreated : s'.created = s.created) (hjobs : s'.jobs = s.jobs)
    (hcontroller : s'.controller = none)
    (hcancelled : s'.cancelled = s.connectionJob.toList ++ s.cancelled)
    (hrecorded : ∀ c, s.controller = some c ∨ c ∈ s.destroyRequested ∨ c ∈ s.abandoned →
      c ∈ s'.destroyRequested ∨ c ∈ s'.abandoned)
    (htun : Tun.KeptBy s.policy.sessionGeneration s'.tunOwnership) : s'.Owned where
  generation := by rw [hgeneration]; exact h.generation
  launching := by
    rw [hlaunching]
    rcases h.launching with hnone | ⟨a, hone, hreserved⟩
    · exact Or.inl hnone
    · refine Or.inr ⟨a, hone, ?_, ?_, ?_, ?_, ?_, hcontroller⟩
      · rw [hgeneration, hreserved.session]
      · rw [hregistry, hreserved.active]
      · rw [hregistry, hreserved.phase]
      · rw [hregistry]
        exact hreserved.last
      · rw [hcreated]
        exact hreserved.fresh
  issued := by rw [hcreated, hregistry, hgeneration]; exact h.issued
  distinct := by rw [hcreated]; exact h.distinct
  held := by
    rw [hcreated]
    intro a ha
    exact Or.inr (hrecorded a.session (h.held a ha))
  jobsDistinct := by rw [hjobs]; exact h.jobsDistinct
  jobs := by
    rw [hjobs, hgeneration, hcancelled]
    intro j hj
    obtain ⟨hbound, hdone⟩ := h.jobs j hj
    refine ⟨hbound, Or.inl (List.mem_append.mpr ?_)⟩
    rcases hdone with hcancel | hcurrent
    · exact Or.inr hcancel
    · exact Or.inl (by simp [hcurrent])
  tun := by rw [hgeneration]; exact htun

theorem Owned.abandon (h : s.Owned) : s.abandonWedgedConnectingAttemptIfAny.Owned := by
  rw [abandonWedgedConnectingAttemptIfAny]
  split_ifs
  · refine h.cleared rfl rfl rfl rfl rfl rfl rfl ?_ ((h.tun.invalidate _).release _)
    rintro c (hcontroller | hdestroy | hgiven)
    · exact Or.inr (by simp [hcontroller])
    · exact Or.inl hdestroy
    · exact Or.inr (by simp [hgiven])
  · exact h

theorem Owned.stopVpn (h : s.Owned) (disconnectByError : Bool) :
    (s.stopVpn disconnectByError).Owned := by
  have htun := h.tun.invalidate s.policy.sessionGeneration
  rw [VpnService.stopVpn]
  dsimp only
  split_ifs
  · exact h.of_same ⟨s.policy.beginTeardown_generation _, rfl, rfl, rfl, rfl, rfl, rfl, rfl, rfl,
      rfl⟩ htun
  · refine h.cleared (s.policy.beginTeardown_generation _) rfl rfl rfl rfl rfl rfl ?_
      (htun.release _)
    rintro c (hcontroller | hdestroy | hgiven)
    · exact Or.inl (by simp [releaseSession, sendConnectionStateBroadcast, hcontroller])
    · exact Or.inl (by simp [releaseSession, sendConnectionStateBroadcast, hdestroy])
    · exact Or.inr hgiven

theorem Owned.onError (h : s.Owned) (session : Int) : (s.onError session).Owned := by
  have hsame : ({ s with mIsUserDisconnect := false } : VpnService T).Owned :=
    h.of_same ⟨rfl, rfl, rfl, rfl, rfl, rfl, rfl, rfl, rfl, rfl⟩ h.tun
  rw [VpnService.onError]
  split_ifs
  · exact hsame.stopVpn true
  · exact h

/-- With nothing live there is no controller, no job and no TUN. -/
theorem resourcesLive_eq_false :
    s.resourcesLive = false ↔
      s.controller = none ∧ s.tunOwnership.isHeld = false ∧ s.connectionJob = none := by
  simp [resourcesLive, and_assoc]

theorem Owned.startVpn (h : s.Owned) : s.startVpn.Owned := by
  have habandon := h.abandon
  rw [VpnService.startVpn]
  set s₀ := s.abandonWedgedConnectingAttemptIfAny
  split_ifs with hrefused
  · exact habandon
  · have hidle : s₀.resourcesLive = false := by simpa using hrefused
    obtain ⟨hcontroller, -, hjob⟩ := resourcesLive_eq_false.mp hidle
    by_cases hlaunching : s₀.launching = []
    · rcases acquireNativeSlotOrRecover_cases s₀.clock s₀.registry with
        ⟨hnone, -, hlast⟩ | ⟨-, hjust, hlease⟩
      · rw [show acquireNativeSlotOrRecover s₀.clock s₀.registry = (_, none) from
          Prod.ext rfl hnone]
        exact ⟨habandon.generation, Or.inl hlaunching, by rw [hlast]; exact habandon.issued,
          habandon.distinct, habandon.held, habandon.jobsDistinct, habandon.jobs, habandon.tun⟩
      · rw [show acquireNativeSlotOrRecover s₀.clock s₀.registry = (_, some _) from
          Prod.ext rfl hlease]
        exact habandon.startSession hcontroller hjob hjust rfl hlaunching
    · rw [habandon.acquire_refused hlaunching]
      exact habandon.of_same ⟨rfl, rfl, rfl, rfl, rfl, rfl, rfl, rfl, rfl, rfl⟩ habandon.tun

/-- The only coroutine that launches is the one that builds its controller, and no controller is
    overwritten. -/
theorem Owned.buildController (h : s.Owned) (a : Attempt) : (s.buildController a).Owned := by
  rw [VpnService.buildController]
  split_ifs with hmem
  · obtain ⟨b, hone, hreserved⟩ := h.launching.resolve_left (List.ne_nil_of_mem hmem)
    obtain rfl : a = b := by simpa [hone] using hmem
    refine ⟨h.generation, Or.inl ?_, ?_, ?_, ?_, h.jobsDistinct, h.jobs, h.tun⟩
    · show s.launching.erase a = []
      rw [hone]
      simp
    · intro b hb
      rcases List.mem_cons.mp hb with rfl | hold
      · exact ⟨hreserved.last, hreserved.session.le⟩
      · exact h.issued b hold
    · refine List.nodup_cons.mpr ⟨fun hold => ?_, h.distinct⟩
      obtain ⟨b, hb, hsame⟩ := List.mem_map.mp hold
      exact (hreserved.fresh b hb).2 hsame
    · intro b hb
      rcases List.mem_cons.mp hb with rfl | hold
      · exact Or.inl rfl
      · refine Or.inr ((h.held b hold).resolve_left ?_)
        rw [hreserved.idle]
        simp
  · exact h

theorem Owned.destroyOwned (h : s.Owned) (a : Attempt) : (s.destroyOwned a).Owned := by
  have hlaunching : s.launching = [] ∨ ∃ b, s.launching = [b] ∧ (s.destroyOwned a).Reserved b := by
    rcases h.launching with hnone | ⟨b, hone, hreserved⟩
    · exact Or.inl hnone
    · refine Or.inr ⟨b, hone, hreserved.session, hreserved.active, hreserved.phase, hreserved.last,
        hreserved.fresh, ?_⟩
      simp [VpnService.destroyOwned, hreserved.idle]
  refine ⟨h.generation, hlaunching, h.issued, h.distinct, ?_, h.jobsDistinct, h.jobs, h.tun⟩
  intro b hb
  rcases h.held b hb with hcontroller | hdestroy | hgiven
  · -- the controller is the one that is destroyed, or it stays
    by_cases hcurrent : s.policy.isCurrentSession a.session = true
    · exact Or.inr (Or.inl (by simp [VpnService.destroyOwned, hcurrent, hcontroller]))
    · exact Or.inl (by simp [VpnService.destroyOwned, hcurrent, hcontroller])
  · exact Or.inr (Or.inl (List.mem_append_right _ hdestroy))
  · exact Or.inr (Or.inr hgiven)

theorem Owned.endCoroutine (h : s.Owned) (a : Attempt) : (s.endCoroutine a).Owned := by
  rw [VpnService.endCoroutine]
  split_ifs with hmem
  · obtain ⟨b, hone, hreserved⟩ := h.launching.resolve_left (List.ne_nil_of_mem hmem)
    obtain rfl : a = b := by simpa [hone] using hmem
    refine ⟨h.generation, Or.inl ?_, ?_, h.distinct, h.held, h.jobsDistinct, h.jobs, h.tun⟩
    · show s.launching.erase a = []
      rw [hone]
      simp
    · have hlast : (s.registry.confirmTeardown (some a.lease)).1.lastAttemptId =
          s.registry.lastAttemptId :=
        call_lastAttemptId (show (Call.confirmTeardown (some a.lease)).lease = _ from rfl) 0 _
      intro b hb
      show b.lease.attemptId ≤ (s.registry.confirmTeardown (some a.lease)).1.lastAttemptId ∧ _
      rw [hlast]
      exact h.issued b hb
  · exact h.of_same ⟨rfl, rfl, rfl, rfl, rfl, rfl, rfl, rfl, rfl, rfl⟩ h.tun

theorem Owned.establish (h : s.Owned) (session : Int) (answer : Establish T) :
    (s.establishVpnInterface session answer).Owned := by
  rw [establishVpnInterface]
  cases henter : s.tunOwnership.installEnter session with
  | none => exact h
  | some tun =>
    exact h.of_same ⟨rfl, rfl, rfl, rfl, rfl, rfl, rfl, rfl, rfl, rfl⟩ (h.tun.install henter answer)

/-- A controller's call on the slot leaves the coroutine that launches alone: the leases
    differ. -/
theorem Owned.nativeCall (h : s.Owned) (a : Attempt) (call : Call) :
    (s.nativeCall a call).Owned := by
  rw [VpnService.nativeCall]
  split_ifs with hown
  · obtain ⟨hcreated, hcall⟩ := hown
    refine ⟨h.generation, ?_, ?_, h.distinct, h.held, h.jobsDistinct, h.jobs, h.tun⟩
    · rcases h.launching with hnone | ⟨b, hone, hreserved⟩
      · exact Or.inl hnone
      · have hother : a.lease.attemptId ≠ s.registry.activeAttemptId := by
          rw [hreserved.active]
          exact (hreserved.fresh a hcreated).1
        have hkept := call_of_other hother hcall s.clock
        refine Or.inr ⟨b, hone, hreserved.session, ?_, ?_, ?_, hreserved.fresh, hreserved.idle⟩
        · rw [hkept, hreserved.active]
        · rw [hkept, hreserved.phase]
        · rw [hkept]
          exact hreserved.last
    · intro b hb
      rw [call_lastAttemptId hcall]
      exact h.issued b hb
  · exact h

theorem Owned.connectCancelled (h : s.Owned) (a : Attempt) : (s.connectCancelled a).Owned := by
  have hended := (h.destroyOwned a).endCoroutine a
  rw [VpnService.connectCancelled]
  dsimp only
  split_ifs
  · exact hended.of_same ⟨rfl, rfl, rfl, rfl, rfl, rfl, rfl, rfl, rfl, rfl⟩ hended.tun
  · exact hended
  · exact h

theorem Owned.connectFailed (h : s.Owned) (a : Attempt) : (s.connectFailed a).Owned := by
  rw [VpnService.connectFailed]
  split_ifs
  · exact (h.onError a.session).endCoroutine a
  · exact h

theorem sameOwner_connectReturned (s : VpnService T) (a : Attempt) :
    SameOwner s (s.connectReturned a) ∧ (s.connectReturned a).tunOwnership = s.tunOwnership := by
  rw [VpnService.connectReturned]
  dsimp only
  split_ifs <;> exact ⟨⟨rfl, rfl, rfl, rfl, rfl, rfl, rfl, rfl, rfl, rfl⟩, rfl⟩

theorem sameOwner_onStateChange (s : VpnService T) (session : Int) (state : ConnectionState) :
    SameOwner s (s.onStateChange session state) ∧
      (s.onStateChange session state).tunOwnership = s.tunOwnership := by
  rw [onStateChange]
  dsimp only
  split_ifs
  · exact ⟨⟨rfl, rfl, rfl, rfl, rfl, rfl, rfl, rfl, rfl, rfl⟩, rfl⟩
  · rw [handleConnectionState]
    dsimp only [publishOrPark]
    split_ifs <;> exact ⟨⟨rfl, rfl, rfl, rfl, rfl, rfl, rfl, rfl, rfl, rfl⟩, rfl⟩

theorem sameOwner_firePending (s : VpnService T) :
    SameOwner s s.firePending ∧ s.firePending.tunOwnership = s.tunOwnership := by
  rw [firePending]
  cases s.pendingStateRunnable with
  | none => exact ⟨⟨rfl, rfl, rfl, rfl, rfl, rfl, rfl, rfl, rfl, rfl⟩, rfl⟩
  | some parked =>
    dsimp only
    split_ifs <;> exact ⟨⟨rfl, rfl, rfl, rfl, rfl, rfl, rfl, rfl, rfl, rfl⟩, rfl⟩

/-- **One action.** -/
theorem Owned.step (h : s.Owned) (t : Timed T) : (s.step t).Owned := by
  have hwait : (s.wait t.elapsed t.nowMs).Owned :=
    h.of_same ⟨rfl, rfl, rfl, rfl, rfl, rfl, rfl, rfl, rfl, rfl⟩ h.tun
  have hframe : ∀ s', SameOwner (s.wait t.elapsed t.nowMs) s' ∧
      s'.tunOwnership = (s.wait t.elapsed t.nowMs).tunOwnership → s'.Owned := by
    rintro s' ⟨hview, htun⟩
    refine hwait.of_same hview ?_
    rw [htun]
    exact hwait.tun
  have huser : ∀ b,
      ({ s.wait t.elapsed t.nowMs with mIsUserDisconnect := b } : VpnService T).Owned :=
    fun b => hframe _ ⟨⟨rfl, rfl, rfl, rfl, rfl, rfl, rfl, rfl, rfl, rfl⟩, rfl⟩
  rw [VpnService.step]
  cases t.action with
  | connect => exact (huser false).startVpn
  | disconnect => exact (huser true).stopVpn false
  | stateChange session state => exact hframe _ (sameOwner_onStateChange _ session state)
  | error session => exact hwait.onError session
  | firePending => exact hframe _ (sameOwner_firePending _)
  | buildController a => exact hwait.buildController a
  | connectReturned a => exact hframe _ (sameOwner_connectReturned _ a)
  | connectCancelled a => exact hwait.connectCancelled a
  | connectFailed a => exact hwait.connectFailed a
  | establish session answer => exact hwait.establish session answer
  | release session =>
    exact hwait.of_same ⟨rfl, rfl, rfl, rfl, rfl, rfl, rfl, rfl, rfl, rfl⟩
      (hwait.tun.release session)
  | native a call => exact hwait.nativeCall a call

/-! ### No session is orphaned -/

/-- The jobs that nobody cancelled. -/
def liveJobs (s : VpnService T) : List Int := s.jobs.filter (· ∉ s.cancelled)

/-- The service as the start gate finds it in a start at `t`. -/
def atGate (s : VpnService T) (t : Timed T) : VpnService T :=
  { s.wait t.elapsed t.nowMs with mIsUserDisconnect := false }.abandonWedgedConnectingAttemptIfAny

/-- The action asks for a teardown of the current session. -/
def TearsDown (s : VpnService T) : Action T → Prop
  | .disconnect => True
  | .error session => s.policy.shouldTearDownOnError session = true
  | .connectFailed a =>
    (a ∈ s.launching ∨ a ∈ s.connecting) ∧ s.policy.shouldTearDownOnError a.session = true
  | _ => False

/-- An accepted start, as it left the service. -/
structure Accepted (s : VpnService T) (t : Timed T) : Prop where
  connect : t.action = .connect
  released : (s.atGate t).controller = none ∧ (s.atGate t).tunOwnership.isHeld = false ∧
    (s.atGate t).connectionJob = none
  granted : ∃ registry lease,
    acquireNativeSlotOrRecover t.nowMs s.registry = (registry, some lease) ∧
      s.step t = (s.atGate t).startSession registry lease
  disowned : ∀ a ∈ (s.step t).created,
    a.session ∈ (s.step t).destroyRequested ∨ a.session ∈ (s.step t).abandoned

/-- A teardown, as it left the service. -/
structure TornDown (s s' : VpnService T) : Prop where
  released : s'.resourcesLive = false
  controller : ∀ c, s.controller = some c → c ∈ s'.destroyRequested
  job : ∀ j, s.connectionJob = some j → j ∈ s'.cancelled

/-- **No session is orphaned.** A controller is given up only by a start that finds its attempt
    wedged. -/
structure NoOrphan (s : VpnService T) : Prop where
  oneJob : s.liveJobs.length ≤ 1
  oneController : (s.created.map Attempt.session).Nodup
  accepted : ∀ t, (s.step t).policy.sessionGeneration ≠ s.policy.sessionGeneration → s.Accepted t
  givenUp : ∀ t, ∀ c ∈ (s.step t).abandoned, c ∈ s.abandoned ∨
    t.action = .connect ∧ (s.wait t.elapsed t.nowMs).Wedged ∧ s.controller = some c
  teardown : ∀ t, s.TearsDown t.action → s.TornDown (s.step t)

theorem stopVpn_kept (s : VpnService T) (disconnectByError : Bool) :
    (s.stopVpn disconnectByError).policy.sessionGeneration = s.policy.sessionGeneration ∧
      (s.stopVpn disconnectByError).abandoned = s.abandoned := by
  rw [VpnService.stopVpn]
  dsimp only
  split_ifs <;> exact ⟨s.policy.beginTeardown_generation _, rfl⟩

theorem onError_kept (s : VpnService T) (session : Int) :
    (s.onError session).policy.sessionGeneration = s.policy.sessionGeneration ∧
      (s.onError session).abandoned = s.abandoned := by
  rw [VpnService.onError]
  split_ifs
  · exact stopVpn_kept _ true
  · exact ⟨rfl, rfl⟩

theorem endCoroutine_kept (s : VpnService T) (a : Attempt) :
    (s.endCoroutine a).policy = s.policy ∧ (s.endCoroutine a).abandoned = s.abandoned := by
  rw [VpnService.endCoroutine]
  split_ifs <;> exact ⟨rfl, rfl⟩

theorem connectCancelled_kept (s : VpnService T) (a : Attempt) :
    (s.connectCancelled a).policy.sessionGeneration = s.policy.sessionGeneration ∧
      (s.connectCancelled a).abandoned = s.abandoned := by
  obtain ⟨hpolicy, habandoned⟩ := endCoroutine_kept (s.destroyOwned a) a
  have hgeneration := congrArg SessionPolicy.sessionGeneration hpolicy
  rw [VpnService.connectCancelled]
  dsimp only
  split_ifs
  · exact ⟨hgeneration, habandoned⟩
  · exact ⟨hgeneration, habandoned⟩
  · exact ⟨rfl, rfl⟩

theorem connectFailed_kept (s : VpnService T) (a : Attempt) :
    (s.connectFailed a).policy.sessionGeneration = s.policy.sessionGeneration ∧
      (s.connectFailed a).abandoned = s.abandoned := by
  rw [VpnService.connectFailed]
  split_ifs
  · obtain ⟨hpolicy, habandoned⟩ := endCoroutine_kept (s.onError a.session) a
    rw [hpolicy, habandoned]
    exact onError_kept s a.session
  · exact ⟨rfl, rfl⟩

/-- Only a start begins a session, and only a start gives a controller up. -/
theorem step_kept {t : Timed T} (hconnect : t.action ≠ .connect) :
    (s.step t).policy.sessionGeneration = s.policy.sessionGeneration ∧
      (s.step t).abandoned = s.abandoned := by
  have hframe : ∀ s', SameOwner (s.wait t.elapsed t.nowMs) s' →
      s'.policy.sessionGeneration = s.policy.sessionGeneration ∧ s'.abandoned = s.abandoned :=
    fun s' hview => ⟨hview.generation, hview.abandoned⟩
  rw [VpnService.step]
  cases haction : t.action with
  | connect => exact absurd haction hconnect
  | disconnect => exact stopVpn_kept _ false
  | stateChange session state => exact hframe _ (sameOwner_onStateChange _ session state).1
  | error session => exact onError_kept _ session
  | firePending => exact hframe _ (sameOwner_firePending _).1
  | buildController a =>
    dsimp only [act, VpnService.buildController]
    split_ifs <;> exact ⟨rfl, rfl⟩
  | connectReturned a => exact hframe _ (sameOwner_connectReturned _ a).1
  | connectCancelled a => exact connectCancelled_kept _ a
  | connectFailed a => exact connectFailed_kept _ a
  | establish session answer =>
    dsimp only [act, establishVpnInterface]
    cases (s.wait t.elapsed t.nowMs).tunOwnership.installEnter session <;> exact ⟨rfl, rfl⟩
  | release session => exact ⟨rfl, rfl⟩
  | native a call =>
    dsimp only [act, VpnService.nativeCall]
    split_ifs <;> exact ⟨rfl, rfl⟩

/-- The gate changes neither the session nor the slot; it gives up the controller of a wedged
    attempt. -/
theorem atGate_cases (s : VpnService T) (t : Timed T) :
    (s.atGate t).policy = s.policy ∧ (s.atGate t).registry = s.registry ∧
      (s.atGate t).clock = t.nowMs ∧
      ((s.atGate t).abandoned = s.abandoned ∨
        (s.wait t.elapsed t.nowMs).Wedged ∧
          (s.atGate t).abandoned = s.controller.toList ++ s.abandoned) := by
  rw [atGate, abandonWedgedConnectingAttemptIfAny]
  split_ifs with hwedged
  · exact ⟨rfl, rfl, rfl, Or.inr ⟨hwedged, rfl⟩⟩
  · exact ⟨rfl, rfl, rfl, Or.inl rfl⟩

/-- **A start begins a session or leaves the one there is.** -/
theorem step_connect {t : Timed T} (hconnect : t.action = .connect) :
    ((s.step t).policy = s.policy ∧ (s.step t).abandoned = (s.atGate t).abandoned) ∨
      (s.atGate t).resourcesLive = false ∧ ∃ registry lease,
        acquireNativeSlotOrRecover t.nowMs s.registry = (registry, some lease) ∧
          s.step t = (s.atGate t).startSession registry lease := by
  obtain ⟨hpolicy, hregistry, hclock, -⟩ := atGate_cases s t
  have hstep : s.step t =
      ({ s.wait t.elapsed t.nowMs with mIsUserDisconnect := false } : VpnService T).startVpn := by
    rw [VpnService.step, hconnect]
    rfl
  rw [hstep, VpnService.startVpn]
  change (_ ∧ _) ∨ _
  rw [show ({ s.wait t.elapsed t.nowMs with
    mIsUserDisconnect := false } : VpnService T).abandonWedgedConnectingAttemptIfAny = s.atGate t
    from rfl, hregistry, hclock]
  split_ifs with hrefused
  · exact Or.inl ⟨hpolicy, rfl⟩
  · have hidle : (s.atGate t).resourcesLive = false := by simpa using hrefused
    obtain ⟨registry, granted⟩ := acquireNativeSlotOrRecover t.nowMs s.registry
    cases granted with
    | none => exact Or.inl ⟨hpolicy, rfl⟩
    | some lease => exact Or.inr ⟨hidle, registry, lease, rfl, rfl⟩

/-- **A teardown request leaves nothing live**, the first one and every repetition of it. -/
theorem Owned.tornDown (h : s.Owned) (disconnectByError : Bool) :
    s.TornDown (s.stopVpn disconnectByError) := by
  have htun := h.tun.invalidate s.policy.sessionGeneration
  have hreleased := htun.release_isHeld
  rw [VpnService.stopVpn]
  dsimp only
  split_ifs with hruns
  · -- a repetition runs no teardown only when nothing is live
    have hidle : s.resourcesLive = false := by
      by_contra hlive
      have hlive' : s.resourcesLive = true := eq_true_of_ne_false hlive
      have hgate : ({ s with
          tunOwnership := s.tunOwnership.invalidate s.policy.sessionGeneration
          log := .teardown s.policy.sessionGeneration :: s.log } : VpnService T).resourcesLive =
          true := hlive'
      rw [hgate] at hruns
      simp at hruns
    obtain ⟨hcontroller, -, hjob⟩ := resourcesLive_eq_false.mp hidle
    refine ⟨hidle, ?_, ?_⟩
    · rw [hcontroller]
      simp
    · rw [hjob]
      simp
  · refine ⟨resourcesLive_eq_false.mpr ⟨rfl, hreleased, rfl⟩, ?_, ?_⟩
    · intro c hc
      simp [releaseSession, sendConnectionStateBroadcast, hc]
    · intro j hj
      simp [releaseSession, sendConnectionStateBroadcast, hj]

/-- The end of a coroutine is no part of a teardown. -/
theorem TornDown.endCoroutine (h : s.TornDown s') (a : Attempt) :
    s.TornDown (s'.endCoroutine a) := by
  rw [VpnService.endCoroutine]
  split_ifs <;> exact ⟨h.released, h.controller, h.job⟩

theorem Owned.step_tornDown (h : s.Owned) {t : Timed T} (ht : s.TearsDown t.action) :
    s.TornDown (s.step t) := by
  have hstop : ∀ b userDisconnect, s.TornDown (({ s.wait t.elapsed t.nowMs with
      mIsUserDisconnect := userDisconnect } : VpnService T).stopVpn b) := by
    intro b userDisconnect
    have hsame : ({ s.wait t.elapsed t.nowMs with
        mIsUserDisconnect := userDisconnect } : VpnService T).Owned :=
      h.of_same ⟨rfl, rfl, rfl, rfl, rfl, rfl, rfl, rfl, rfl, rfl⟩ h.tun
    have hdown := hsame.tornDown b
    exact ⟨hdown.released, hdown.controller, hdown.job⟩
  have herror : ∀ session, s.policy.shouldTearDownOnError session = true →
      s.TornDown ((s.wait t.elapsed t.nowMs).onError session) := by
    intro session hcurrent
    rw [VpnService.onError]
    show s.TornDown (if s.policy.shouldTearDownOnError session = true then _ else _)
    rw [if_pos hcurrent]
    exact hstop true false
  rw [VpnService.step]
  cases haction : t.action with
  | disconnect => exact hstop false true
  | error session =>
    rw [haction] at ht
    exact herror session ht
  | connectFailed a =>
    rw [haction] at ht
    have hrunning : a ∈ (s.wait t.elapsed t.nowMs).launching ∨
        a ∈ (s.wait t.elapsed t.nowMs).connecting := ht.1
    dsimp only [act, VpnService.connectFailed]
    rw [if_pos hrunning]
    exact (herror a.session ht.2).endCoroutine a
  | connect | stateChange _ _ | firePending | buildController _ | connectReturned _
  | connectCancelled _ | establish _ _ | release _ | native _ _ =>
    rw [haction] at ht
    exact ht.elim

theorem Owned.liveJobs_length (h : s.Owned) : s.liveJobs.length ≤ 1 := by
  have hjob : ∀ j ∈ s.liveJobs, s.connectionJob = some j := by
    intro j hj
    obtain ⟨hmem, hlive⟩ := List.mem_filter.mp hj
    exact (h.jobs j hmem).2.resolve_left (by simpa using hlive)
  have hdistinct : s.liveJobs.Nodup := h.jobsDistinct.filter _
  cases hjobs : s.liveJobs with
  | nil => simp
  | cons j rest =>
    cases rest with
    | nil => simp
    | cons k rest =>
      rw [hjobs] at hjob hdistinct
      have hj := hjob j (by simp)
      have hk := hjob k (by simp)
      rw [hj] at hk
      simp [Option.some.inj hk] at hdistinct

theorem Owned.accepted (h : s.Owned) {t : Timed T}
    (hnew : (s.step t).policy.sessionGeneration ≠ s.policy.sessionGeneration) : s.Accepted t := by
  have hconnect : t.action = .connect := by
    by_contra hother
    exact hnew (step_kept hother).1
  rcases step_connect (s := s) hconnect with
    ⟨hpolicy, -⟩ | ⟨hidle, registry, lease, hgranted, hstep⟩
  · exact absurd (congrArg SessionPolicy.sessionGeneration hpolicy) hnew
  · have hreleased := resourcesLive_eq_false.mp hidle
    refine ⟨hconnect, hreleased, ⟨registry, lease, hgranted, hstep⟩, ?_⟩
    intro a ha
    refine ((h.step t).held a ha).resolve_left ?_
    rw [hstep, show ((s.atGate t).startSession registry lease).controller = none from hreleased.1]
    simp

theorem Owned.noOrphan (h : s.Owned) : s.NoOrphan where
  oneJob := h.liveJobs_length
  oneController := h.distinct
  accepted _ hnew := h.accepted hnew
  givenUp t c hc := by
    by_cases hconnect : t.action = .connect
    · have hgate : c ∈ (s.atGate t).abandoned := by
        rcases step_connect (s := s) hconnect with ⟨-, habandoned⟩ | ⟨-, registry, lease, -, hstep⟩
        · rwa [habandoned] at hc
        · rwa [hstep] at hc
      obtain ⟨-, -, -, hkept | ⟨hwedged, hgiven⟩⟩ := atGate_cases s t
      · exact Or.inl (hkept ▸ hgate)
      · rw [hgiven, List.mem_append, Option.mem_toList] at hgate
        exact hgate.symm.imp_right fun hcontroller => ⟨hconnect, hwedged, hcontroller⟩
    · rw [(step_kept hconnect).2] at hc
      exact Or.inl hc
  teardown _ ht := h.step_tornDown ht

/-- **No session is orphaned by a start or a stop**, in any run. Only a controller that was given
    up keeps its resources without being asked to destroy them. -/
theorem no_session_orphaned (ts : List (Timed T)) :
    Always step NoOrphan (new : VpnService T) ts :=
  always_of_along (I := Owned) (C := fun _ _ => True) (fun _ t h _ => h.step t)
    (fun _ h => h.noOrphan) (along_true _ _ _) owned_new

/-! ### A controller that nobody destroys -/

/-- An attempt that is stuck in its native connect. -/
def wedgedRun : List (Timed ℕ) :=
  let wedged : Attempt := ⟨1, ⟨1, Nat.one_ne_zero⟩⟩
  [⟨0, 1000, .connect⟩, ⟨10, 1010, .buildController wedged⟩,
    ⟨10, 1020, .native wedged (.markNativeEntered (some wedged.lease))⟩]

/-- The next start comes 30 seconds later: it is accepted, and the controller of the first session
    was not asked to destroy anything. -/
theorem accepted_with_wedged_controller :
    let s := run step (new : VpnService ℕ) wedgedRun
    let s' := s.step ⟨30000, 31020, .connect⟩
    s'.policy.sessionGeneration = s.policy.sessionGeneration + 1 ∧
      s'.created.map Attempt.session = [1] ∧ s'.destroyRequested = [] := by
  decide

end VpnService

end SoftEther.Service
