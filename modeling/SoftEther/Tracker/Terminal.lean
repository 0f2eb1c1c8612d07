import SoftEther.AutoMode.Controller
import SoftEther.Tracker.Producers

namespace SoftEther.Tracker

open Lib VpnStackLedger

/-!
# Terminal events

When every stack has reported that it is gone, the tracker should show no tunnel, and a press of
the button should start a run.

* `Stacks.Holds` — a stack is listed, or an attempt, a tunnel or a teardown of it is shown;
* `Idle` — the tracker holds nothing, and the guard of the controller does not refuse;
* `OnlyOutstanding` — what the tracker holds has not reported that it is gone;
* `Heard` — the report is not dropped, and revives no stack that is gone;
* `onlyOutstanding_always_iff`, `idleWhenGone_always` — the runs all of whose reports are heard.
-/

/-- Stack `p` is listed, or an attempt, a tunnel or a teardown of it is shown. -/
def Stacks.Holds (s : Stacks) (p : String) : Prop :=
  p ∈ s.keys ∨ s.current.status.isActiveOrBusy = true ∧ s.current.protocol = some p

instance (s : Stacks) (p : String) : Decidable (s.Holds p) :=
  inferInstanceAs (Decidable (_ ∨ _ ∧ _))

/-- **The tracker is idle**, and a press starts a run. -/
structure Idle (t : GlobalVpnTracker) : Prop where
  ledger : t.ledger.live = []
  status : t.currentStatus = .DISCONNECTED ∨ t.currentStatus = .ERROR
  inactive : t.isActiveOrBusy = false
  /-- With `isTunnelBusy = { GlobalVpnTracker.isActiveOrBusy }`. -/
  starts : ∀ (c : AutoMode.Controller) (w : AutoMode.Reading), w.isTunnelBusy = t.isActiveOrBusy →
    (c.state = .Disconnected ∨ ∃ e, c.state = .Error e) → c.onButtonPressed w = c.startFresh

/-- **Nothing is held of a stack that is gone.** -/
def OnlyOutstanding (s : Reported) : Prop :=
  ∀ p, s.tracker.ledger.Holds p → outstanding s.past p = true

/-- **The report is heard.** The end of SSTP is not dropped while the tracker holds SSTP, and a
    teardown is not announced of a stack that has failed. -/
def Heard (s : Reported) : Report → Prop
  | .sstp false _ => s.tracker.ledger.Holds "SSTP" → SstpShown s.tracker
  | .disconnecting => s.tracker.vpnState.status ≠ .ERROR
  | _ => True

instance (s : Reported) : (r : Report) → Decidable (Heard s r)
  | .sstp false _ => inferInstanceAs (Decidable (_ → _))
  | .disconnecting => inferInstanceAs (Decidable (_ ≠ _))
  | .sstp true _ | .softEther _ _ | .openVpn _ | .connecting _ _ _ | .tick _ => isTrue trivial

/-- What the slot says about its stack. -/
structure SlotNamed (s : Reported) : Prop extends Coherent s.tracker.ledger where
  /-- What is under way or has failed is that of a stack. -/
  named : s.tracker.vpnState.status ≠ .DISCONNECTED → s.tracker.vpnState.protocol.isSome = true
  /-- A tunnel that is gone is that of none. -/
  blank : s.tracker.vpnState.status = .DISCONNECTED → s.tracker.vpnState.protocol = none
  /-- A stack that has failed is gone. -/
  failed : s.tracker.vpnState.status = .ERROR → ∀ p, s.tracker.vpnState.protocol = some p →
    outstanding s.past p = false

theorem isActiveOrBusy_iff (status : VpnConnectionStatus) :
    status.isActiveOrBusy = true ↔ status ≠ .DISCONNECTED ∧ status ≠ .ERROR := by
  cases status <;> simp [VpnConnectionStatus.isActiveOrBusy]

/-- **A tracker that holds no stack is idle.** -/
theorem SlotNamed.idle {s : Reported} (h : SlotNamed s)
    (hfree : ∀ p, ¬ s.tracker.ledger.Holds p) : Idle s.tracker := by
  have hinactive : s.tracker.isActiveOrBusy = false := by
    by_contra hactive
    have htrue : s.tracker.isActiveOrBusy = true := by simpa using hactive
    have hne := (isActiveOrBusy_iff _).mp htrue
    obtain ⟨p, hp⟩ := Option.isSome_iff_exists.mp (h.named hne.1)
    exact hfree p (.inr ⟨htrue, hp⟩)
  refine ⟨?_, ?_, hinactive, ?_⟩
  · have hkeys : s.tracker.ledger.keys = [] := by
      rw [List.eq_nil_iff_forall_not_mem]
      intro p hp
      exact hfree p (.inl hp)
    exact List.map_eq_nil_iff.mp hkeys
  · by_contra hstatus
    rw [not_or] at hstatus
    have htrue : s.tracker.isActiveOrBusy = true := (isActiveOrBusy_iff _).mpr hstatus
    rw [htrue] at hinactive
    cases hinactive
  · intro c w hw hstate
    unfold AutoMode.Controller.onButtonPressed
    rcases hstate with hstate | ⟨e, hstate⟩ <;> simp [hstate, hw, hinactive]

/-! ### What is outstanding -/

section Outstanding

variable {r : Report} {past : List Report} {p q : String}

/-- A report says one thing of one stack. -/
theorem Report.closes_of_opens (h : r.connects = some q ∨ r.attempts = some q) :
    r.closes = none := by
  cases r with
  | softEther state assignedIp => cases state <;> simp_all [connects, attempts, closes]
  | openVpn status => cases status <;> simp_all [connects, attempts, closes]
  | sstp rootState homeConnectedIp => cases rootState <;> simp_all [connects, attempts, closes]
  | _ => simp_all [connects, attempts, closes]

theorem Report.connects_or_attempts (h : r.connects = some q ∨ r.attempts = some q) :
    (r.connects = some p ∨ r.attempts = some p) ↔ p = q := by
  cases r with
  | softEther state assignedIp => cases state <;> simp_all [connects, attempts, eq_comm]
  | openVpn status => cases status <;> simp_all [connects, attempts, eq_comm]
  | sstp rootState homeConnectedIp => cases rootState <;> simp_all [connects, attempts, eq_comm]
  | connecting protocol serverHost serverIp => simp_all [connects, attempts, eq_comm]
  | _ => simp_all [connects, attempts]

theorem Report.not_opens_of_closes (h : r.closes = some q) :
    r.connects = none ∧ r.attempts = none := by
  cases r with
  | softEther state assignedIp => cases state <;> simp_all [connects, attempts, closes]
  | openVpn status => cases status <;> simp_all [connects, attempts, closes]
  | sstp rootState homeConnectedIp => cases rootState <;> simp_all [connects, attempts, closes]
  | _ => simp_all [closes]

theorem outstanding_opens (h : r.connects = some q ∨ r.attempts = some q) :
    outstanding (r :: past) p = (decide (p = q) || outstanding past p) := by
  rw [outstanding, Report.closes_of_opens h]
  by_cases hp : p = q
  · simp [Report.connects_or_attempts h, hp]
  · simp [Report.connects_or_attempts h, hp]

theorem outstanding_closes (h : r.closes = some q) :
    outstanding (r :: past) p = (decide (p ≠ q) && outstanding past p) := by
  obtain ⟨hconnects, hattempts⟩ := Report.not_opens_of_closes h
  rw [outstanding, hconnects, hattempts, h]
  by_cases hp : p = q
  · simp [hp]
  · simp [hp, Ne.symm hp]

theorem outstanding_silent (hconnects : r.connects = none) (hattempts : r.attempts = none)
    (hcloses : r.closes = none) : outstanding (r :: past) p = outstanding past p := by
  rw [outstanding, hconnects, hattempts, hcloses]
  simp

end Outstanding

/-! ### What one event leaves -/

section Fold

variable {s : Stacks} {event : VpnStackEvent} {p q : String}

theorem mem_keys_without (live : List VpnStackReport) :
    p ∈ (without live q).map VpnStackReport.protocol ↔
      p ≠ q ∧ p ∈ live.map VpnStackReport.protocol := by
  rw [map_protocol_without, List.mem_filter]
  simp [and_comm]

/-- An event that does not end its stack shows it. -/
theorem fold_shows (hkey : event.protocol = some q) (hstatus : event.status.isTerminal = false) :
    (s.fold event).current.status = event.status ∧ (s.fold event).current.protocol = some q := by
  rcases status_cases event.status with hcase | hcase | hcase
  · rw [fold_connected hkey hcase, hcase]
    exact ⟨rfl, rfl⟩
  · rw [fold_passing hkey hcase]
    exact ⟨rfl, rfl⟩
  · rw [hcase] at hstatus
    cases hstatus

theorem holds_fold (hkey : event.protocol = some q) (hstatus : event.status.isTerminal = false) :
    (s.fold event).Holds p ↔ p = q ∨ p ∈ s.keys := by
  obtain ⟨hshown, hprotocol⟩ := fold_shows (s := s) hkey hstatus
  have hactive : event.status.isActiveOrBusy = true := by
    rw [VpnConnectionStatus.isActiveOrBusy_eq, hstatus]
    rfl
  rw [Stacks.Holds, hshown, hprotocol, mem_keys_fold]
  by_cases hp : p = q
  · simp [hactive, hp]
  · have hdecides : event.decides p = false := by
      simp [VpnStackEvent.decides, hkey, Ne.symm hp]
    simp [hdecides, hactive, hp, Ne.symm hp]

/-- A terminal event leaves what was held of the other stacks, at most. -/
theorem holds_fold_terminal (hkey : event.protocol = some q)
    (hstatus : event.status.isTerminal = true) (h : (s.fold event).Holds p) :
    p ≠ q ∧ s.Holds p := by
  have hlive := fold_terminal_live (s := s) hkey hstatus
  have hcurrent := fold_terminal_current (s := s) hkey hstatus
  rcases h with hmem | ⟨hactive, hprotocol⟩
  · rw [Stacks.keys, hlive, mem_keys_without] at hmem
    exact ⟨hmem.1, .inl hmem.2⟩
  · rcases hlast : (without s.live q).getLast? with _ | e
    · rw [hlast] at hcurrent
      by_cases howner : s.current.protocol = some q
      · simp only [howner, if_true] at hcurrent
        rw [hcurrent, ended_status, VpnConnectionStatus.isActiveOrBusy_eq, hstatus] at hactive
        cases hactive
      · simp only [howner, if_false] at hcurrent
        rw [hcurrent] at hactive hprotocol
        exact ⟨fun heq => howner (heq ▸ hprotocol), .inr ⟨hactive, hprotocol⟩⟩
    · rw [hlast] at hcurrent
      rw [hcurrent] at hprotocol
      have he : e.protocol = p := Option.some.inj hprotocol
      have hmem : p ∈ (without s.live q).map VpnStackReport.protocol := by
        rw [← he]
        exact List.mem_map_of_mem (List.mem_of_getLast? hlast)
      rw [mem_keys_without] at hmem
      exact ⟨hmem.1, .inl hmem.2⟩

end Fold

/-! ### One report -/

section Step

variable {s : Reported} {r : Report}

variable {event : VpnStackEvent} {q : String}

/-- What the slot says of itself after an event that does not end its stack. -/
theorem SlotNamed.of_shows (h : SlotNamed s)
    (hfold : (s.tracker.report r).ledger = s.tracker.ledger.fold event)
    (hkey : event.protocol = some q) (hstatus : event.status.isTerminal = false) :
    SlotNamed (s.step r) := by
  obtain ⟨hshown, hprotocol⟩ := fold_shows (s := s.tracker.ledger) hkey hstatus
  have hcurrent : (s.step r).tracker.vpnState = (s.tracker.ledger.fold event).current := by
    rw [GlobalVpnTracker.vpnState, Reported.step, hfold]
  refine ⟨?_, ?_, ?_, ?_⟩
  · rw [Reported.step, hfold]
    exact h.toCoherent.fold event
  · intro _
    rw [hcurrent, hprotocol]
    rfl
  · intro hdisconnected
    rw [hcurrent, hshown] at hdisconnected
    rw [hdisconnected] at hstatus
    cases hstatus
  · intro herror
    rw [hcurrent, hshown] at herror
    rw [herror] at hstatus
    cases hstatus

/-- The same after an event that ends its stack. -/
theorem SlotNamed.of_terminal (h : SlotNamed s) (hcloses : r.closes = some q)
    (hfold : (s.tracker.report r).ledger = s.tracker.ledger.fold event)
    (hkey : event.protocol = some q) (hstatus : event.status.isTerminal = true) :
    SlotNamed (s.step r) := by
  have hslot : (s.step r).tracker.vpnState = (s.tracker.ledger.fold event).current := by
    rw [GlobalVpnTracker.vpnState, Reported.step, hfold]
  have hcurrent := fold_terminal_current (s := s.tracker.ledger) hkey hstatus
  have hcoherent : Coherent (s.step r).tracker.ledger := by
    rw [Reported.step, hfold]
    exact h.toCoherent.fold event
  -- nobody else is live, or the last of the others is shown
  rcases hlast : (without s.tracker.ledger.live q).getLast? with _ | e
  · rw [hlast] at hcurrent
    by_cases howner : s.tracker.ledger.current.protocol = some q
    · simp only [howner, if_true] at hcurrent
      have hended : (s.step r).tracker.vpnState = ended s.tracker.ledger.current event :=
        hslot.trans hcurrent
      refine ⟨hcoherent, ?_, ?_, ?_⟩
      · intro hne
        rw [hended, ended_status] at hne
        simp [hended, ended, hne, howner]
      · intro heq
        rw [hended, ended_status] at heq
        simp [hended, ended, heq]
      · intro heq p hp
        rw [hended, ended_status] at heq
        have hpq : some q = some p := by
          simpa [hended, ended, heq, howner] using hp
        show outstanding (r :: s.past) p = false
        rw [outstanding_closes hcloses, Option.some.inj hpq]
        simp
    · simp only [howner, if_false] at hcurrent
      have hsame : (s.step r).tracker.vpnState = s.tracker.vpnState := hslot.trans hcurrent
      refine ⟨hcoherent, ?_, ?_, ?_⟩
      · rw [hsame]
        exact h.named
      · rw [hsame]
        exact h.blank
      · rw [hsame]
        intro heq p hp
        show outstanding (r :: s.past) p = false
        rw [outstanding_closes hcloses, h.failed heq p hp, Bool.and_false]
  · rw [hlast] at hcurrent
    have hshown : (s.step r).tracker.vpnState = e.connected := hslot.trans hcurrent
    refine ⟨hcoherent, ?_, ?_, ?_⟩
    · intro _
      rw [hshown]
      rfl
    · intro heq
      rw [hshown] at heq
      cases heq
    · intro heq
      rw [hshown] at heq
      cases heq

/-- The same when nothing is published, and nothing is said but that stacks are gone. -/
theorem SlotNamed.of_same (h : SlotNamed s) (hsame : (s.tracker.report r).ledger = s.tracker.ledger)
    (hpast : s.tracker.vpnState.status = .ERROR → ∀ p, outstanding s.past p = false →
      outstanding (r :: s.past) p = false) : SlotNamed (s.step r) := by
  have hslot : (s.step r).tracker.vpnState = s.tracker.vpnState := by
    rw [GlobalVpnTracker.vpnState, GlobalVpnTracker.vpnState, Reported.step, hsame]
  refine ⟨?_, ?_, ?_, ?_⟩
  · rw [Reported.step, hsame]
    exact h.toCoherent
  · rw [hslot]
    exact h.named
  · rw [hslot]
    exact h.blank
  · rw [hslot]
    intro heq p hp
    exact hpast heq p (h.failed heq p hp)

/-- **Every report leaves the slot named.** -/
theorem SlotNamed.step (h : SlotNamed s) (r : Report) : SlotNamed (s.step r) := by
  rcases hconnects : r.connects with _ | q
  · rcases hattempts : r.attempts with _ | q
    · rcases hcloses : r.closes with _ | q
      · by_cases hr : r = .disconnecting
        · subst hr
          rcases hprotocol : s.tracker.vpnState.protocol with _ | q
          · apply h.of_same
            · rw [report_disconnecting, fold_none hprotocol]
            · intro _ p hp
              rw [outstanding_silent rfl rfl rfl, hp]
          · exact h.of_shows (report_disconnecting _) hprotocol rfl
        · apply h.of_same (report_nothing _ _ hconnects hattempts hcloses hr)
          intro _ p hp
          rw [outstanding_silent hconnects hattempts hcloses, hp]
      · rcases report_closes s.tracker r hcloses with
          ⟨_, event, hfold, hkey, hstatus⟩ | ⟨hsame, _⟩
        · exact h.of_terminal hcloses hfold hkey hstatus
        · apply h.of_same hsame
          intro _ p hp
          rw [outstanding_closes hcloses, hp, Bool.and_false]
    · rcases report_attempts s.tracker r hattempts with ⟨hsame, hup⟩ | ⟨event, hfold, hkey, hstatus⟩
      · apply h.of_same hsame
        intro herror
        rw [hup] at herror
        cases herror
      · exact h.of_shows hfold hkey (by rw [hstatus]; rfl)
  · obtain ⟨event, hfold, hkey, hstatus, _⟩ := report_connects s.tracker r hconnects
    exact h.of_shows hfold hkey (by rw [hstatus]; rfl)

/-- An event that shows a stack leaves nothing held that is gone, if that stack is outstanding. -/
theorem OnlyOutstanding.of_shows (h : OnlyOutstanding s)
    (hfold : (s.tracker.report r).ledger = s.tracker.ledger.fold event)
    (hkey : event.protocol = some q) (hstatus : event.status.isTerminal = false)
    (hopens : r.connects = some q ∨ r.attempts = some q) : OnlyOutstanding (s.step r) := by
  intro p hp
  show outstanding (r :: s.past) p = true
  rw [outstanding_opens hopens]
  rw [Reported.step, hfold, holds_fold hkey hstatus] at hp
  rcases hp with rfl | hmem
  · simp
  · rw [h p (.inl hmem), Bool.or_true]

/-- A teardown that is announced holds what is shown, unless nothing is. -/
theorem onlyOutstanding_disconnecting (hnamed : SlotNamed s) (h : OnlyOutstanding s) :
    OnlyOutstanding (s.step .disconnecting) ↔ Heard s .disconnecting := by
  have hfold := report_disconnecting s.tracker
  rcases hprotocol : s.tracker.vpnState.protocol with _ | q
  · refine iff_of_true ?_ ?_
    · intro p hp
      show outstanding (.disconnecting :: s.past) p = true
      rw [outstanding_silent rfl rfl rfl]
      rw [Reported.step, hfold, fold_none hprotocol] at hp
      exact h p hp
    · intro herror
      have hsome := hnamed.named (by rw [herror]; decide)
      rw [hprotocol] at hsome
      cases hsome
  · have hholds : ∀ p, (s.step .disconnecting).tracker.ledger.Holds p ↔
        p = q ∨ p ∈ s.tracker.ledger.keys := by
      intro p
      rw [Reported.step, hfold]
      exact holds_fold hprotocol rfl
    constructor
    · intro hout herror
      have hq : outstanding (.disconnecting :: s.past) q = true :=
        hout q ((hholds q).mpr (.inl rfl))
      rw [outstanding_silent rfl rfl rfl, hnamed.failed herror q hprotocol] at hq
      cases hq
    · intro hheard p hp
      show outstanding (.disconnecting :: s.past) p = true
      rw [outstanding_silent rfl rfl rfl]
      rcases (hholds p).mp hp with rfl | hmem
      · apply h p
        refine .inr ⟨(isActiveOrBusy_iff _).mpr ⟨?_, hheard⟩, hprotocol⟩
        intro hdisconnected
        rw [hnamed.blank hdisconnected] at hprotocol
        cases hprotocol
      · exact h p (.inl hmem)

/-- A terminal report is heard, unless it is the end of SSTP and dropped. -/
theorem onlyOutstanding_closes (h : OnlyOutstanding s) (hcloses : r.closes = some q) :
    OnlyOutstanding (s.step r) ↔ Heard s r := by
  rcases report_closes s.tracker r hcloses with
    ⟨hshown, event, hfold, hkey, hstatus⟩ | ⟨hsame, homeConnectedIp, rfl, hdropped⟩
  · refine iff_of_true ?_ ?_
    · intro p hp
      rw [Reported.step, hfold] at hp
      obtain ⟨hne, hheld⟩ := holds_fold_terminal hkey hstatus hp
      show outstanding (r :: s.past) p = true
      rw [outstanding_closes hcloses, h p hheld]
      simpa using hne
    · cases r with
      | sstp rootState homeConnectedIp =>
        cases rootState
        · exact fun _ => hshown _ rfl
        · trivial
      | disconnecting => cases hcloses
      | _ => trivial
  · have hq : "SSTP" = q := Option.some.inj hcloses
    constructor
    · intro hout hheld
      have hsstp := hout "SSTP" (by rw [Reported.step, hsame]; exact hheld)
      have hgone : outstanding (.sstp false homeConnectedIp :: s.past) "SSTP" = false := by
        rw [outstanding_closes hcloses, ← hq]
        simp
      rw [show (s.step (.sstp false homeConnectedIp)).past =
        .sstp false homeConnectedIp :: s.past from rfl, hgone] at hsstp
      cases hsstp
    · intro hheard p hp
      rw [Reported.step, hsame] at hp
      show outstanding (.sstp false homeConnectedIp :: s.past) p = true
      rw [outstanding_closes hcloses, h p hp, ← hq]
      have hne : p ≠ "SSTP" := by
        rintro rfl
        exact hdropped (hheard hp)
      simpa using hne

/-- **What one report does to what is held.** -/
theorem onlyOutstanding_step_iff (hnamed : SlotNamed s) (h : OnlyOutstanding s) :
    OnlyOutstanding (s.step r) ↔ Heard s r := by
  rcases hconnects : r.connects with _ | q
  · rcases hattempts : r.attempts with _ | q
    · rcases hcloses : r.closes with _ | q
      · by_cases hr : r = .disconnecting
        · subst hr
          exact onlyOutstanding_disconnecting hnamed h
        · have hheard : Heard s r := by
            cases r with
            | sstp rootState homeConnectedIp =>
              cases rootState <;> first | (cases hcloses; done) | cases hconnects
            | disconnecting => exact absurd rfl hr
            | _ => trivial
          refine iff_of_true ?_ hheard
          intro p hp
          show outstanding (r :: s.past) p = true
          rw [outstanding_silent hconnects hattempts hcloses]
          rw [Reported.step, report_nothing _ _ hconnects hattempts hcloses hr] at hp
          exact h p hp
      · exact onlyOutstanding_closes h hcloses
    · have hheard : Heard s r := by
        cases r with
        | sstp rootState homeConnectedIp => cases hattempts
        | disconnecting => cases hattempts
        | _ => trivial
      refine iff_of_true ?_ hheard
      rcases report_attempts s.tracker r hattempts with ⟨hsame, hup⟩ | ⟨event, hfold, hkey, hstatus⟩
      · intro p hp
        show outstanding (r :: s.past) p = true
        rw [Reported.step, hsame] at hp
        rw [outstanding_opens (.inr hattempts), h p hp, Bool.or_true]
      · exact h.of_shows hfold hkey (by rw [hstatus]; rfl) (.inr hattempts)
  · have hheard : Heard s r := by
      cases r with
      | sstp rootState homeConnectedIp =>
        cases rootState
        · cases hconnects
        · trivial
      | disconnecting => cases hconnects
      | _ => trivial
    obtain ⟨event, hfold, hkey, hstatus, _⟩ := report_connects s.tracker r hconnects
    exact iff_of_true (h.of_shows hfold hkey (by rw [hstatus]; rfl) (.inl hconnects)) hheard

end Step

/-! ### Runs -/

theorem slotNamed_init : SlotNamed {} := by
  refine ⟨⟨List.nodup_nil, fun _ => rfl, ?_⟩, ?_, fun _ => rfl, ?_⟩
  · intro h
    cases h
  · intro h
    exact absurd rfl h
  · intro h
    cases h

theorem onlyOutstanding_init : OnlyOutstanding {} := by
  intro p hp
  rcases hp with hmem | ⟨hactive, _⟩
  · cases hmem
  · cases hactive

/-- **The runs that hold nothing of a stack that is gone** are those all of whose reports are
    heard. -/
theorem onlyOutstanding_always_iff (rs : List Report) :
    Always Reported.step OnlyOutstanding {} rs ↔ Along Reported.step Heard {} rs := by
  apply always_iff_along (I := SlotNamed)
  · exact fun _ r h => h.step r
  · exact fun _ _ h ho => onlyOutstanding_step_iff h ho
  · exact slotNamed_init
  · exact onlyOutstanding_init

/-- **When every stack is gone, the tracker is idle.** -/
def IdleWhenGone (s : Reported) : Prop := (∀ p, outstanding s.past p = false) → Idle s.tracker

theorem OnlyOutstanding.idleWhenGone {s : Reported} (hnamed : SlotNamed s)
    (h : OnlyOutstanding s) : IdleWhenGone s := by
  intro hgone
  apply hnamed.idle
  intro p hp
  have hout := h p hp
  rw [hgone p] at hout
  cases hout

/-- **The tracker does not stick** in a run all of whose reports are heard. -/
theorem idleWhenGone_always {rs : List Report} (h : Along Reported.step Heard {} rs) :
    Always Reported.step IdleWhenGone {} rs := by
  apply always_of_along (I := fun s => SlotNamed s ∧ OnlyOutstanding s) ?_ ?_ h
    ⟨slotNamed_init, onlyOutstanding_init⟩
  · intro s r hs hheard
    exact ⟨hs.1.step r, (onlyOutstanding_step_iff hs.1 hs.2).mpr hheard⟩
  · exact fun s hs => hs.2.idleWhenGone hs.1

/-- SSTP is connected and torn down while OpenVPN fails, and every report is heard. -/
def bothGone : List Report :=
  [.connecting "SSTP" (some "host") (some "10.0.0.1"), .sstp true "10.0.0.1",
   .openVpn .LEVEL_START, .openVpn .LEVEL_AUTH_FAILED, .sstp false "10.0.0.1"]

theorem idleWhenGone_bothGone :
    (∀ p, outstanding (run Reported.step {} bothGone).past p = false) ∧
      Always Reported.step IdleWhenGone {} bothGone := by
  refine ⟨?_, idleWhenGone_always (by decide)⟩
  intro p
  simp only [bothGone, run, Reported.step, outstanding, Report.connects, Report.attempts,
    Report.closes, List.foldl_cons, List.foldl_nil]
  by_cases hsstp : "SSTP" = p <;> by_cases hopen : "OpenVPN" = p <;> simp [hsstp, hopen]

/-- SSTP is connected, its teardown is announced, and it is gone. -/
def announced : List Report := [.sstp true "10.0.0.1", .disconnecting, .sstp false "10.0.0.1"]

theorem tracker_sticks : ¬ Always Reported.step IdleWhenGone {} announced := by
  intro h
  have hidle := always_iff.mp h announced (List.prefix_refl _)
  have hgone : ∀ p, outstanding (run Reported.step {} announced).past p = false := by
    intro p
    simp [announced, run, Reported.step, outstanding, Report.connects, Report.attempts,
      Report.closes, eq_comm]
  have hinactive := (hidle hgone).inactive
  revert hinactive
  decide

end SoftEther.Tracker
