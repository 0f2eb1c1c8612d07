import SoftEther.Service.VpnService

namespace SoftEther.Service

open Lib
open SoftEther.Controller (ConnectionState)

/-!
# The states that a service publishes

A state may be published at once, parked by the rate limit, or dropped. What decides is the
identity of the session that reported it and the teardown latch; a state that is parked is not
looked at again when its time comes.

* `tornDown`, `latestSession` — what a log says of the session at its end;
* `MayHappen` — what a state that is not stale meets, event by event;
* `NeverStale` — the same for a whole log;
* `FiresTornDown` — a delayed update comes due while its session is torn down;
* `neverStale_along` — in a run without such a step no stale state is published.
-/

/-! ### What a log says -/

/-- A teardown was requested since the last session started. -/
def tornDown : List ServiceEvent → Bool
  | [] => false
  | .started _ :: _ => false
  | .teardown _ :: _ => true
  | .reported _ :: before => tornDown before
  | .published _ _ :: before => tornDown before

/-- The session that started last, or `0`. -/
def latestSession : List ServiceEvent → Int
  | [] => 0
  | .started session :: _ => session
  | .teardown _ :: before => latestSession before
  | .reported _ :: before => latestSession before
  | .published _ _ :: before => latestSession before

/-- The report is of the latest session, and nothing that session reported later was published as
    its `CONNECTED`. -/
structure Current (before : List ServiceEvent) (r : Report) : Prop where
  session : r.session = latestSession before
  reported : .reported r ∈ before
  latest : ∀ r', .published .connected (some r') ∈ before → r'.session = r.session →
    r'.number ≤ r.number

/-- A `CONNECTED` of the latest session, before any teardown of it. -/
def Eligible (r : Report) (before : List ServiceEvent) : Prop :=
  r.state = .connected ∧ r.session = latestSession before ∧ tornDown before = false

/-- After such a `CONNECTED` the next event is its publication. -/
def Prompt (e : ServiceEvent) (before : List ServiceEvent) : Prop :=
  ∀ r rest, before = .reported r :: rest → Eligible r rest → e = .published .connected (some r)

/-- **What a published state meets.** After a teardown it is `DISCONNECTED` or `ERROR`; when it
    was reported, it was by the latest session, and no `CONNECTED` of that session reported later
    was published before. Reports are numbered in their order. -/
def MayHappen (e : ServiceEvent) (before : List ServiceEvent) : Prop :=
  Prompt e before ∧
    match e with
    | .published state report =>
      (tornDown before = true → state = .disconnected ∨ state = .error) ∧
        ∀ r, report = some r → state = r.state ∧ Current before r
    | .reported r => ∀ r', .reported r' ∈ before → r'.number < r.number
    | _ => True

/-- No `CONNECTED` waits for its publication. -/
def Settled (log : List ServiceEvent) : Prop :=
  ∀ r rest, log = .reported r :: rest → ¬ Eligible r rest

/-- **No stale state was published.** -/
def NeverStale (log : List ServiceEvent) : Prop := Checked MayHappen log ∧ Settled log

/-- In a checked log a published report was reported. -/
theorem reported_of_published {log : List ServiceEvent} (h : Checked MayHappen log)
    {state : ConnectionState} {r : Report} (hr : .published state (some r) ∈ log) :
    .reported r ∈ log := by
  induction log with
  | nil => exact absurd hr List.not_mem_nil
  | cons e before ih =>
    obtain ⟨hlast, hbefore⟩ := h
    rcases List.mem_cons.mp hr with rfl | hrest
    · exact List.mem_cons_of_mem _ (hlast.2.2 r rfl).2.reported
    · exact List.mem_cons_of_mem _ (ih hbefore hrest)

variable {before : List ServiceEvent}

theorem settled_cons {e : ServiceEvent} (h : ∀ r, e = .reported r → ¬ Eligible r before) :
    Settled (e :: before) := by
  intro r rest heq
  obtain ⟨rfl, rfl⟩ := List.cons.inj heq
  exact h r rfl

theorem Settled.prompt (h : Settled before) (e : ServiceEvent) : Prompt e before := by
  intro r rest heq heligible
  exact absurd heligible (h r rest heq)

/-- One more event that is no `CONNECTED` keeps a report current, while the session stays. -/
theorem Current.cons {r : Report} (h : Current before r) {e : ServiceEvent}
    (hsession : latestSession (e :: before) = latestSession before)
    (he : ∀ r', e = .published .connected (some r') → r'.session = r.session →
      r'.number ≤ r.number) : Current (e :: before) r where
  session := by rw [hsession, h.session]
  reported := List.mem_cons_of_mem e h.reported
  latest r' hr' hsame := by
    rcases List.mem_cons.mp hr' with heq | hrest
    · exact he r' heq.symm hsame
    · exact h.latest r' hrest hsame

namespace VpnService

variable {T : Type*} {s s' : VpnService T}

/-! ### The invariant -/

/-- What the fields say of the log, and what is parked. -/
structure Published (s : VpnService T) : Prop where
  stopping : s.policy.isStopping = tornDown s.log
  generation : s.policy.sessionGeneration = latestSession s.log
  parked : ∀ p, s.pendingStateRunnable = some p →
    Current s.log p.report ∧ isTerminalState p.report.state = false
  numbers : ∀ r, .reported r ∈ s.log → r.number < s.reports
  checked : Checked MayHappen s.log

theorem published_new : (new : VpnService T).Published where
  stopping := rfl
  generation := rfl
  parked := nofun
  numbers := nofun
  checked := trivial

/-- The fields that publication reads are the same. -/
structure SameView (s s' : VpnService T) : Prop where
  stopping : s'.policy.isStopping = s.policy.isStopping
  generation : s'.policy.sessionGeneration = s.policy.sessionGeneration
  parked : s'.pendingStateRunnable = s.pendingStateRunnable
  reports : s'.reports = s.reports
  log : s'.log = s.log

theorem SameView.refl (s : VpnService T) : SameView s s := ⟨rfl, rfl, rfl, rfl, rfl⟩

theorem Published.of_same (h : s.Published) (hv : SameView s s') : s'.Published where
  stopping := by rw [hv.stopping, hv.log, h.stopping]
  generation := by rw [hv.generation, hv.log, h.generation]
  parked p hp := by
    rw [hv.parked] at hp
    rw [hv.log]
    exact h.parked p hp
  numbers r hr := by
    rw [hv.log] at hr
    rw [hv.reports]
    exact h.numbers r hr
  checked := by
    rw [hv.log]
    exact h.checked

/-! ### Events -/

/-- A broadcast; when it carries a report nothing may be parked. -/
theorem Published.send (h : s.Published) {state : ConnectionState} {report : Option Report}
    (hmay : MayHappen (.published state report) s.log)
    (hparked : report = none ∨ s.pendingStateRunnable = none) :
    (s.sendConnectionStateBroadcast state report).Published where
  stopping := h.stopping
  generation := h.generation
  parked p hp := by
    obtain ⟨hcurrent, hterminal⟩ := h.parked p hp
    refine ⟨hcurrent.cons rfl ?_, hterminal⟩
    intro r' heq
    rcases hparked with rfl | hnone
    · simp at heq
    · rw [show s.pendingStateRunnable = some p from hp] at hnone
      exact absurd hnone (by simp)
  numbers r hr := by
    rcases List.mem_cons.mp hr with heq | hrest
    · exact absurd heq (by simp)
    · exact h.numbers r hrest
  checked := ⟨hmay, h.checked⟩

theorem settled_send (s : VpnService T) (state : ConnectionState) (report : Option Report) :
    Settled (s.sendConnectionStateBroadcast state report).log :=
  settled_cons (by simp)

/-- A terminal state that no controller reported. -/
theorem Published.sendOwn (h : s.Published) (hsettled : Settled s.log) {state : ConnectionState}
    (hstate : state = .disconnected ∨ state = .error) :
    (s.sendConnectionStateBroadcast state none).Published :=
  h.send ⟨hsettled.prompt _, fun _ => hstate, nofun⟩ (Or.inl rfl)

/-! ### A report -/

variable {r : Report}

/-- The newest report, from the current session, is published: it is current, and what it waits
    for is its own publication. -/
theorem mayHappen_report {before : List ServiceEvent} (hcurrent : Current (.reported r :: before) r)
    (htorn : tornDown before = false) :
    MayHappen (.published r.state (some r)) (.reported r :: before) := by
  refine ⟨?_, fun h => absurd (htorn.symm.trans h) (by simp), ?_⟩
  · intro r' rest heq heligible
    obtain ⟨heq', -⟩ := List.cons.inj heq
    obtain rfl : r = r' := by simpa using heq'
    rw [heligible.1]
  · rintro _ ⟨rfl⟩
    exact ⟨rfl, hcurrent⟩

/-- With nothing parked, the newest report is published, or parked when it is not terminal. -/
theorem Published.publishOrPark (h : s.Published) (hidle : s.pendingStateRunnable = none)
    {before : List ServiceEvent} (hlog : s.log = .reported r :: before) (hcurrent : Current s.log r)
    (htorn : tornDown before = false) :
    (s.publishOrPark r).Published ∧ Settled (s.publishOrPark r).log := by
  rw [VpnService.publishOrPark]
  split_ifs with hlimit
  · rw [Bool.and_eq_true, Bool.not_eq_true'] at hlimit
    refine ⟨⟨h.stopping, h.generation, ?_, h.numbers, h.checked⟩, ?_⟩
    · rintro _ ⟨rfl⟩
      exact ⟨hcurrent, hlimit.1⟩
    · show Settled s.log
      rw [hlog]
      refine settled_cons ?_
      rintro _ ⟨rfl⟩ heligible
      rw [heligible.1] at hlimit
      exact absurd hlimit.1 (by decide)
  · have hsame : ({ s with lastStateUpdateTime := s.clock } : VpnService T).Published :=
      h.of_same ⟨rfl, rfl, rfl, rfl, rfl⟩
    refine ⟨hsame.send ?_ (Or.inr hidle), settled_send _ _ _⟩
    show MayHappen (.published r.state (some r)) s.log
    rw [hlog] at hcurrent ⊢
    exact mayHappen_report hcurrent htorn

/-- **`handleConnectionState`** of the newest report, which is of the current session. -/
theorem Published.handle (h : s.Published) {before : List ServiceEvent}
    (hlog : s.log = .reported r :: before) (hcurrent : Current s.log r) :
    (s.handleConnectionState r).Published ∧ Settled (s.handleConnectionState r).log := by
  have hstop : s.policy.isStopping = tornDown before := by
    rw [h.stopping, hlog]
    rfl
  rw [handleConnectionState]
  dsimp only
  cases hstopping : s.policy.isStopping with
  | true =>
    -- a state that is not delivered leaves nothing to wait for
    have hdrop : (!s.policy.shouldDeliver r.state) = true := by
      simp [SessionPolicy.shouldDeliver, hstopping]
    rw [if_pos hdrop]
    refine ⟨h, ?_⟩
    rw [hlog]
    refine settled_cons ?_
    rintro _ ⟨rfl⟩ heligible
    rw [hstopping, heligible.2.2] at hstop
    exact absurd hstop (by simp)
  | false =>
    have hdeliver : (!s.policy.shouldDeliver r.state) = false := by
      simp [SessionPolicy.shouldDeliver, hstopping]
    have htorn : tornDown before = false := by rw [← hstop, hstopping]
    -- the pending update is cancelled before anything else
    have hidle : ∀ policy userDisconnect, policy.isStopping = s.policy.isStopping →
        policy.sessionGeneration = s.policy.sessionGeneration →
        ({ s with
            pendingStateRunnable := none
            policy := policy
            mIsUserDisconnect := userDisconnect } : VpnService T).Published := by
      intro policy userDisconnect hstopping' hgeneration
      exact ⟨hstopping'.trans h.stopping, hgeneration.trans h.generation, nofun, h.numbers,
        h.checked⟩
    rw [if_neg (by simp [hdeliver])]
    split_ifs with hlost hwas hconnected
    · refine ⟨(hidle s.policy.onConnectionLost s.mIsUserDisconnect rfl rfl).send ?_ (Or.inr rfl),
        settled_send _ _ _⟩
      show MayHappen (.published r.state (some r)) s.log
      rw [hlog] at hcurrent ⊢
      exact mayHappen_report hcurrent htorn
    · refine ⟨(hidle s.policy s.mIsUserDisconnect rfl rfl).send ?_ (Or.inr rfl),
        settled_send _ _ _⟩
      show MayHappen (.published r.state (some r)) s.log
      rw [hlog] at hcurrent ⊢
      exact mayHappen_report hcurrent htorn
    · exact (hidle s.policy.onConnectedDelivered false rfl rfl).publishOrPark rfl hlog hcurrent
        htorn
    · exact (hidle s.policy s.mIsUserDisconnect rfl rfl).publishOrPark rfl hlog hcurrent htorn

/-- A new report, before anything is done with it. -/
theorem Published.reported (h : s.Published) (hsettled : Settled s.log) (session : Int)
    (state : ConnectionState) :
    ({ s with
        reports := s.reports + 1
        log := .reported ⟨session, state, s.reports⟩ :: s.log } : VpnService T).Published where
  stopping := h.stopping
  generation := h.generation
  parked p hp := by
    obtain ⟨hcurrent, hterminal⟩ := h.parked p hp
    exact ⟨hcurrent.cons rfl (by simp), hterminal⟩
  numbers r hr := by
    rcases List.mem_cons.mp hr with heq | hrest
    · obtain rfl : r = ⟨session, state, s.reports⟩ := by simpa using heq
      exact Nat.lt_succ_self _
    · exact Nat.lt_succ_of_lt (h.numbers r hrest)
  checked := ⟨⟨hsettled.prompt _, h.numbers⟩, h.checked⟩

/-- The newest report of the latest session is current: its number is the largest. -/
theorem Published.current_reported (h : s.Published) (hsession : r.session = latestSession s.log)
    (hnumber : r.number = s.reports) : Current (.reported r :: s.log) r where
  session := hsession
  reported := List.mem_cons_self
  latest r' hr' _ := by
    have hrest : .published .connected (some r') ∈ s.log := by simpa using hr'
    have hlt := h.numbers r' (reported_of_published h.checked hrest)
    omega

theorem Published.onStateChange (h : s.Published) (hsettled : Settled s.log) (session : Int)
    (state : ConnectionState) :
    (s.onStateChange session state).Published ∧ Settled (s.onStateChange session state).log := by
  have hreported := h.reported hsettled session state
  rw [VpnService.onStateChange]
  dsimp only
  split_ifs with hobsolete
  · -- an obsolete session is not waited for
    refine ⟨hreported, settled_cons ?_⟩
    rintro _ ⟨rfl⟩ heligible
    have hcurrent : session = latestSession s.log := heligible.2.1
    rw [← h.generation] at hcurrent
    simp [SessionPolicy.isCurrentSession, hcurrent] at hobsolete
  · refine hreported.handle rfl (h.current_reported ?_ rfl)
    rw [← h.generation]
    simpa [SessionPolicy.isCurrentSession] using hobsolete

/-! ### The other actions -/

/-- A delayed update is not stale when its session is not torn down. -/
theorem Published.firePending (h : s.Published) (hsettled : Settled s.log)
    (htorn : ∀ p, s.pendingStateRunnable = some p → p.dueAt ≤ s.uptime →
      s.policy.isStopping = false) :
    s.firePending.Published ∧ Settled s.firePending.log := by
  rw [VpnService.firePending]
  cases hpending : s.pendingStateRunnable with
  | none => exact ⟨h, hsettled⟩
  | some p =>
    dsimp only
    split_ifs with hdue
    · have hnot := htorn p hpending hdue
      rw [h.stopping] at hnot
      have hidle : ({ s with pendingStateRunnable := none } : VpnService T).Published :=
        ⟨h.stopping, h.generation, nofun, h.numbers, h.checked⟩
      refine ⟨hidle.send ⟨hsettled.prompt _, ?_, ?_⟩ (Or.inr rfl), settled_send _ _ _⟩
      · intro hdown
        exact absurd (hnot.symm.trans hdown) (by simp)
      · rintro _ ⟨rfl⟩
        exact ⟨rfl, (h.parked p hpending).1⟩
    · exact ⟨h, hsettled⟩

theorem Published.stopVpn (h : s.Published) (hsettled : Settled s.log) (disconnectByError : Bool) :
    (s.stopVpn disconnectByError).Published ∧ Settled (s.stopVpn disconnectByError).log := by
  -- the request is logged and the latch set, whatever the gate says
  have hdown : ∀ (live : Bool) (tun : Tun T),
      ({ s with
          tunOwnership := tun
          log := .teardown s.policy.sessionGeneration :: s.log
          policy := (s.policy.beginTeardown live).1 } : VpnService T).Published := by
    intro live tun
    refine ⟨s.policy.beginTeardown_isStopping live,
      (s.policy.beginTeardown_generation live).trans h.generation, ?_, ?_, ?_⟩
    · intro p hp
      obtain ⟨hcurrent, hterminal⟩ := h.parked p hp
      exact ⟨hcurrent.cons rfl (by simp), hterminal⟩
    · intro r hr
      exact h.numbers r (by simpa using hr)
    · exact ⟨⟨hsettled.prompt _, trivial⟩, h.checked⟩
  have hstate : ∀ b, terminalState b = .disconnected ∨ terminalState b = .error := by decide
  rw [VpnService.stopVpn]
  dsimp only
  have hsent := fun live => (hdown live (s.tunOwnership.invalidate
    s.policy.sessionGeneration)).sendOwn (settled_cons (by simp)) (hstate disconnectByError)
  split_ifs
  · exact ⟨hsent _, settled_send _ _ _⟩
  · exact ⟨(hsent _).of_same ⟨rfl, rfl, rfl, rfl, rfl⟩, settled_send _ _ _⟩

theorem Published.startSession (h : s.Published) (hsettled : Settled s.log)
    (registry : Native.Registry) (lease : Native.Lease) :
    (s.startSession registry lease).Published ∧ Settled (s.startSession registry lease).log := by
  refine ⟨⟨rfl, rfl, nofun, ?_, ⟨hsettled.prompt _, trivial⟩, h.checked⟩, settled_cons (by simp)⟩
  intro r hr
  exact h.numbers r (by simpa [VpnService.startSession] using hr)

theorem sameView_abandon (s : VpnService T) :
    SameView s s.abandonWedgedConnectingAttemptIfAny := by
  rw [abandonWedgedConnectingAttemptIfAny]
  split_ifs
  · exact ⟨rfl, rfl, rfl, rfl, rfl⟩
  · exact SameView.refl s

theorem Published.startVpn (h : s.Published) (hsettled : Settled s.log) :
    s.startVpn.Published ∧ Settled s.startVpn.log := by
  have hview := sameView_abandon s
  have hkept := h.of_same hview
  have hkept' : Settled s.abandonWedgedConnectingAttemptIfAny.log := by
    rw [hview.log]
    exact hsettled
  rw [VpnService.startVpn]
  split_ifs
  · exact ⟨hkept, hkept'⟩
  · cases acquireNativeSlotOrRecover s.abandonWedgedConnectingAttemptIfAny.clock
        s.abandonWedgedConnectingAttemptIfAny.registry with
    | mk registry lease =>
      cases lease with
      | none => exact ⟨hkept.of_same ⟨rfl, rfl, rfl, rfl, rfl⟩, hkept'⟩
      | some lease => exact hkept.startSession hkept' registry lease

theorem sameView_endCoroutine (s : VpnService T) (a : Attempt) : SameView s (s.endCoroutine a) := by
  rw [endCoroutine]
  split_ifs <;> exact ⟨rfl, rfl, rfl, rfl, rfl⟩

theorem sameView_destroyOwned (s : VpnService T) (a : Attempt) : SameView s (s.destroyOwned a) :=
  ⟨rfl, rfl, rfl, rfl, rfl⟩

theorem SameView.trans {s'' : VpnService T} (h : SameView s s') (h' : SameView s' s'') :
    SameView s s'' where
  stopping := h'.stopping.trans h.stopping
  generation := h'.generation.trans h.generation
  parked := h'.parked.trans h.parked
  reports := h'.reports.trans h.reports
  log := h'.log.trans h.log

theorem Published.connectCancelled (h : s.Published) (hsettled : Settled s.log) (a : Attempt) :
    (s.connectCancelled a).Published ∧ Settled (s.connectCancelled a).log := by
  have hview := (sameView_destroyOwned s a).trans (sameView_endCoroutine (s.destroyOwned a) a)
  have hsame := h.of_same hview
  have hkept : Settled ((s.destroyOwned a).endCoroutine a).log := by
    rw [hview.log]
    exact hsettled
  rw [VpnService.connectCancelled]
  dsimp only
  split_ifs
  · exact ⟨hsame.sendOwn hkept (Or.inl rfl), settled_send _ _ _⟩
  · exact ⟨hsame, hkept⟩
  · exact ⟨h, hsettled⟩

theorem Published.onError (h : s.Published) (hsettled : Settled s.log) (session : Int) :
    (s.onError session).Published ∧ Settled (s.onError session).log := by
  have hsame : ({ s with mIsUserDisconnect := false } : VpnService T).Published :=
    h.of_same ⟨rfl, rfl, rfl, rfl, rfl⟩
  rw [VpnService.onError]
  split_ifs
  · exact hsame.stopVpn hsettled true
  · exact ⟨h, hsettled⟩

theorem Published.connectFailed (h : s.Published) (hsettled : Settled s.log) (a : Attempt) :
    (s.connectFailed a).Published ∧ Settled (s.connectFailed a).log := by
  have hstop := h.onError hsettled a.session
  rw [VpnService.connectFailed]
  split_ifs
  · have hview := sameView_endCoroutine (s.onError a.session) a
    refine ⟨hstop.1.of_same hview, ?_⟩
    rw [hview.log]
    exact hstop.2
  · exact ⟨h, hsettled⟩

theorem sameView_connectReturned (s : VpnService T) (a : Attempt) :
    SameView s (s.connectReturned a) := by
  rw [connectReturned]
  dsimp only
  split_ifs <;> exact ⟨rfl, rfl, rfl, rfl, rfl⟩

theorem sameView_buildController (s : VpnService T) (a : Attempt) :
    SameView s (s.buildController a) := by
  rw [buildController]
  split_ifs <;> exact ⟨rfl, rfl, rfl, rfl, rfl⟩

theorem sameView_establish (s : VpnService T) (session : Int) (answer : Establish T) :
    SameView s (s.establishVpnInterface session answer) := by
  rw [establishVpnInterface]
  cases s.tunOwnership.installEnter session <;> exact ⟨rfl, rfl, rfl, rfl, rfl⟩

theorem sameView_nativeCall (s : VpnService T) (a : Attempt) (call : Native.Call) :
    SameView s (s.nativeCall a call) := by
  rw [nativeCall]
  split_ifs <;> exact ⟨rfl, rfl, rfl, rfl, rfl⟩

/-! ### Runs -/

/-- **A delayed update of a session that is torn down comes due.** -/
def FiresTornDown (s : VpnService T) (t : Timed T) : Prop :=
  t.action = .firePending ∧ s.policy.isStopping = true ∧
    ∃ p, s.pendingStateRunnable = some p ∧ p.dueAt ≤ s.uptime + t.elapsed

/-- **One action.** Unless it runs the delayed update of a session that is torn down, nothing stale
    is published. -/
theorem Published.step (h : s.Published) (hsettled : Settled s.log) {t : Timed T}
    (hfires : ¬ FiresTornDown s t) : (s.step t).Published ∧ Settled (s.step t).log := by
  have hwait : (s.wait t.elapsed t.nowMs).Published := h.of_same ⟨rfl, rfl, rfl, rfl, rfl⟩
  have hframe : ∀ s', SameView (s.wait t.elapsed t.nowMs) s' → s'.Published ∧ Settled s'.log := by
    intro s' hview
    refine ⟨hwait.of_same hview, ?_⟩
    rw [hview.log]
    exact hsettled
  have huser : ∀ b,
      ({ s.wait t.elapsed t.nowMs with mIsUserDisconnect := b } : VpnService T).Published :=
    fun b => hwait.of_same ⟨rfl, rfl, rfl, rfl, rfl⟩
  rw [VpnService.step]
  cases haction : t.action with
  | connect => exact (huser false).startVpn hsettled
  | disconnect => exact (huser true).stopVpn hsettled false
  | stateChange session state => exact hwait.onStateChange hsettled session state
  | error session => exact hwait.onError hsettled session
  | firePending =>
    refine hwait.firePending hsettled ?_
    intro p hp hdue
    by_contra hstopping
    exact hfires ⟨haction, eq_true_of_ne_false hstopping, p, hp, hdue⟩
  | buildController a => exact hframe _ (sameView_buildController _ a)
  | connectReturned a => exact hframe _ (sameView_connectReturned _ a)
  | connectCancelled a => exact hwait.connectCancelled hsettled a
  | connectFailed a => exact hwait.connectFailed hsettled a
  | establish session answer => exact hframe _ (sameView_establish _ session answer)
  | release session => exact hframe _ ⟨rfl, rfl, rfl, rfl, rfl⟩
  | native a call => exact hframe _ (sameView_nativeCall _ a call)

/-- **Published states are never stale** in a run in which no delayed update comes due while its
    session is torn down. -/
theorem neverStale_along (ts : List (Timed T))
    (h : Along step (fun s t => ¬ FiresTornDown s t) (new : VpnService T) ts) :
    Always step (fun s => NeverStale s.log) new ts :=
  always_of_along (I := fun s => s.Published ∧ Settled s.log)
    (fun _ _ hI hC => hI.1.step hI.2 hC) (fun _ hI => ⟨hI.1.checked, hI.2⟩) h
    ⟨published_new, nofun⟩

/-! ### A state that is published after the teardown -/

/-- The first attempt of a process. -/
def firstAttempt : Attempt := ⟨1, ⟨1, Nat.one_ne_zero⟩⟩

/-- A start, and two states of its controller: the second comes within the rate limit. -/
def parkedRun : List (Timed ℕ) :=
  [⟨0, 1000, .connect⟩, ⟨10, 1010, .buildController firstAttempt⟩,
    ⟨0, 1010, .stateChange 1 .connecting⟩, ⟨50, 1060, .stateChange 1 .tlsHandshake⟩]

/-- The user disconnects before the parked state is due, and it is published all the same. -/
theorem published_after_teardown :
    ¬ Always step (fun s => NeverStale s.log) (new : VpnService ℕ)
      (parkedRun ++ [⟨50, 1110, .disconnect⟩, ⟨150, 1260, .firePending⟩]) := by
  intro h
  have hstale := always_iff.mp h _ (List.prefix_refl _)
  have hlog : (run step (new : VpnService ℕ)
      (parkedRun ++ [⟨50, 1110, .disconnect⟩, ⟨150, 1260, .firePending⟩])).log =
      [.published .tlsHandshake (some ⟨1, .tlsHandshake, 1⟩), .published .disconnected none,
        .teardown 1, .reported ⟨1, .tlsHandshake, 1⟩,
        .published .connecting (some ⟨1, .connecting, 0⟩), .reported ⟨1, .connecting, 0⟩,
        .started 1] := by
    decide
  have hlast := Checked.head hstale.1 hlog
  exact absurd (hlast.2.1 rfl) (by decide)

/-- When the parked state is due before the user disconnects, nothing stale is published. -/
theorem neverStale_along_sample :
    Always step (fun s => NeverStale s.log) (new : VpnService ℕ)
      (parkedRun ++ [⟨200, 1260, .firePending⟩, ⟨50, 1310, .disconnect⟩]) := by
  refine neverStale_along _ ⟨?_, ?_, ?_, ?_, ?_, ?_, trivial⟩
  · exact fun h => absurd h.1 nofun
  · exact fun h => absurd h.1 nofun
  · exact fun h => absurd h.1 nofun
  · exact fun h => absurd h.1 nofun
  · rintro ⟨-, hstopping, -⟩
    exact absurd hstopping (by decide)
  · exact fun h => absurd h.1 nofun

end VpnService

end SoftEther.Service
